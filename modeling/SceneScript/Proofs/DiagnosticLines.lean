import SceneScript.Proofs.Description
import SceneScript.Proofs.ErrorReport
import SceneScript.Proofs.Location
import SceneScript.Proofs.ReservedWords
import SceneScript.Proofs.Parser.Honest

/-!
# Diagnostics have a line for each of their parts

A diagnostic has five lines, one more for what is expected and one more for a suggestion.  None of its
parts is broken over several lines but the description of what stands at the error.  Its header is
short, unless it is about a malformed number.
-/

namespace SceneScript

open Grammar Cursor SceneScript.Parser

/-! ## Texts on one line -/

/-- There is no line feed in the text. -/
def OneLine (text : String) : Prop := '\n' ∉ text.toList

instance : DecidablePred OneLine := fun text => inferInstanceAs (Decidable ('\n' ∉ text.toList))

variable {a b text : String} {n m : Nat}

@[simp] theorem oneLine_append : OneLine (a ++ b) ↔ OneLine a ∧ OneLine b := by
  simp [OneLine]

/-- On one line means without a line feed. -/
theorem oneLine_iff_lineFeeds : OneLine text ↔ Text.lineFeeds text.toList = 0 :=
  Text.lineFeeds_eq_zero_iff.symm

theorem oneLine_of_not_blank {chars : List Char} (h : ∀ x ∈ chars, Text.isBlank x = false) :
    OneLine (String.ofList chars) := by
  intro hfeed
  rw [String.toList_ofList] at hfeed
  exact absurd (h _ hfeed) (by decide)

theorem oneLine_of_isWord (h : IsWord text) : OneLine text := by
  intro hfeed
  exact absurd (List.all_eq_true.1 h.2 _ hfeed) (by decide)

theorem oneLine_toString (n : Nat) : OneLine (toString n) := by
  intro hfeed
  rw [Nat.toString_eq_repr, Nat.toList_repr] at hfeed
  exact absurd (Nat.isDigit_of_mem_toDigits (by decide) (by decide) hfeed) (by decide)

theorem oneLine_intercalate {separator : String} {parts : List String} (h : OneLine separator)
    (hparts : ∀ part ∈ parts, OneLine part) : OneLine (separator.intercalate parts) := by
  rw [OneLine, String.toList_intercalate]
  induction parts with
  | nil => exact nofun
  | cons part parts ih =>
    rw [List.forall_mem_cons] at hparts
    cases parts with
    | nil => simpa [OneLine] using hparts.1
    | cons second more =>
      rw [List.map_cons, List.map_cons, List.intercalate_cons_cons, ← List.map_cons]
      simp only [List.mem_append, not_or]
      exact ⟨⟨hparts.1, h⟩, ih hparts.2⟩

/-- A larger number has no fewer digits. -/
theorem length_toString_le (h : m ≤ n) : (toString m).length ≤ (toString n).length := by
  have hlength : ∀ k : Nat, (toString k).length = (Nat.toDigits 10 k).length := by
    intro k
    rw [← String.length_toList, Nat.toString_eq_repr, Nat.toList_repr]
  have hten : 1 < 10 := by decide
  rw [hlength, hlength, Nat.length_toDigits_le_iff hten Nat.length_toDigits_pos]
  exact Nat.lt_of_le_of_lt h
    ((Nat.length_toDigits_le_iff hten Nat.length_toDigits_pos).1 (Nat.le_refl _))

/-! ## What is wrong, in words -/

/-- The keywords that open a block. -/
def openers : List String := ["function", "if", "while", "do"]

/-- The error can be what is wrong at a place in the line of that number. -/
inductive Problem.Arises (place : Cursor) (line : Nat) : Problem → Prop
  | lexical {error : LexicalError} : place.token? = .error error →
      Arises place line (.lexical error)
  | unexpected : Arises place line .unexpected
  | unclosedBlock {keyword : String} {opened : Nat} :
      keyword ∈ openers → opened ≤ line → Arises place line (.unclosedBlock keyword opened)
  | nestingTooDeep : Arises place line (.nestingTooDeep nestingLimit)
  | reservedWord {word : String} : word ∈ reservedWords → Arises place line (.reservedWord word)
  | trailingInput : Arises place line .trailingInput

variable {place : Cursor} {line : Nat} {p : Problem}

/-- What a message quotes of the source has no line feed in it. -/
theorem Problem.Arises.oneLine_message (h : p.Arises place line) (hp : place.Settled) :
    OneLine p.message := by
  cases h with
  | lexical herror =>
    obtain rfl | hnumber | ⟨x, rest, hrest, rfl⟩ := token?_error_cases herror
    · show OneLine "unterminated string literal"
      decide +kernel
    · obtain ⟨piece, rfl, _, hblank⟩ := malformed_of_number? hnumber
      have hpiece := oneLine_of_not_blank hblank
      show OneLine ("malformed number literal `" ++ String.ofList piece ++ "`")
      simp +decide only [oneLine_append, hpiece]
    · have hx := oneLine_of_not_blank (List.forall_mem_singleton.2 (hp.isBlank_eq_false hrest))
      show OneLine ("unrecognized character `" ++ String.ofList [x] ++ "`")
      simp +decide only [oneLine_append, hx]
  | unexpected =>
    show OneLine "syntax error"
    decide +kernel
  | @unclosedBlock keyword opened hkeyword _ =>
    have hopeners : ∀ word ∈ openers, OneLine word := by decide
    show OneLine ("unclosed `" ++ keyword ++ "` block opened on line " ++ toString opened)
    simp +decide only [oneLine_append, hopeners keyword hkeyword, oneLine_toString]
  | nestingTooDeep =>
    show OneLine ("nesting too deep (more than " ++ toString nestingLimit ++ " levels)")
    decide +kernel
  | @reservedWord word hword =>
    have hreserved : ∀ word ∈ reservedWords, OneLine word := by decide
    show OneLine ("reserved word `" ++ word ++ "` used as identifier")
    simp +decide only [oneLine_append, hreserved word hword]
  | trailingInput =>
    show OneLine "unexpected trailing input"
    decide +kernel

/-- Only the text of a malformed number and the number of a line make the words longer. -/
theorem Problem.Arises.length_message_le (h : p.Arises place line)
    (hnumber : ∀ start text, p ≠ .lexical (.malformedNumber start text)) :
    p.message.length ≤ 44 + (toString line).length := by
  cases h with
  | @lexical error _ =>
    cases error with
    | unterminatedString start =>
      show "unterminated string literal".length ≤ _
      exact Nat.le_add_right_of_le (by decide +kernel)
    | malformedNumber start text => exact absurd rfl (hnumber start text)
    | unrecognizedCharacter offset char =>
      have hwords : "unrecognized character `".length = 24 ∧ "`".length = 1 := by decide +kernel
      have hchar : (String.ofList [char]).length = 1 := String.length_ofList
      show ("unrecognized character `" ++ String.ofList [char] ++ "`").length ≤ _
      simp only [String.length_append]
      omega
  | unexpected =>
    show "syntax error".length ≤ _
    exact Nat.le_add_right_of_le (by decide +kernel)
  | @unclosedBlock keyword opened hkeyword hline =>
    -- the longest keyword of a block, and a line number as long as the number of the line
    have hopeners : ∀ word ∈ openers, word.length ≤ 8 := by decide
    have hword := hopeners keyword hkeyword
    have hdigits := length_toString_le hline
    have hwords : "unclosed `".length = 10 ∧ "` block opened on line ".length = 23 := by
      decide +kernel
    show ("unclosed `" ++ keyword ++ "` block opened on line " ++ toString opened).length ≤ _
    simp only [String.length_append]
    omega
  | nestingTooDeep =>
    show ("nesting too deep (more than " ++ toString nestingLimit ++ " levels)").length ≤ _
    exact Nat.le_add_right_of_le (by decide +kernel)
  | @reservedWord word hword =>
    have hreserved : ∀ word ∈ reservedWords, word.length ≤ 9 := by decide
    have hlength := hreserved word hword
    have hwords : "reserved word `".length = 15 ∧ "` used as identifier".length = 20 := by
      decide +kernel
    show ("reserved word `" ++ word ++ "` used as identifier").length ≤ _
    simp only [String.length_append]
    omega
  | trailingInput =>
    show "unexpected trailing input".length ≤ _
    exact Nat.le_add_right_of_le (by decide +kernel)

/-! ## What can be wrong with a source -/

namespace Parser

variable {source : String} {e : ParseError} {c d : Cursor} {f : Farthest}

/-- Further on in a source a line has no smaller number. -/
theorem line_le_line (hc : (start source).Onward c) (hd : c.Onward d) :
    (Position.ofOffset source c.pos).line ≤ (Position.ofOffset source d.pos).line := by
  obtain ⟨count, rfl⟩ := hc
  obtain ⟨more, rfl⟩ := hd
  rw [advance_advance, Position.ofOffset, Position.ofOffset, takeBytes_pos, takeBytes_pos]
  simp only [Position.after, List.take_add, Text.lineFeeds_append]
  omega

theorem mem_openers_of_isOpen {keyword : String} {us : List Token} (h : IsOpen keyword us) :
    keyword ∈ openers := by
  cases h <;> decide

/-- An unclosed block is reported on the line where it was opened. -/
theorem unclosed_of_kind {keyword : String} {line : Nat}
    (h : f.kind source = .unclosedBlock keyword line) :
    ∃ opened, f.reason = some (.unclosed keyword opened)
      ∧ (Position.ofOffset source opened.pos).line = line := by
  unfold Farthest.kind at h
  split at h
  · cases h
  · cases h
    exact ⟨_, ‹_›, rfl⟩
  · cases h

/-- What is wrong with a source can be wrong at the place of the error. -/
theorem arises_of_parseWith (h : parseWith .nothing source = .error e) :
    e.kind.Arises (atOffset source e.position.offset) e.position.line := by
  obtain ⟨place, ⟨ts, hreads, hsettled, _⟩, hposition, hlexical⟩ := reached_of_parseWith h
  have hoffset : e.position.offset = place.pos := by
    rw [hposition, offset_ofOffset hreads.onward]
  cases hkind : e.kind with
  | lexical error =>
    rw [hoffset, atOffset_pos hreads.onward]
    exact .lexical (hlexical error hkind)
  | unexpected => exact .unexpected
  | unclosedBlock keyword line =>
    obtain ⟨s, ss, us, hrefusal⟩ := exists_refusal h (.inr ⟨keyword, line, hkind⟩)
    obtain ⟨opened, hreason, rfl⟩ := unclosed_of_kind (hrefusal.kind.symm.trans hkind)
    obtain ⟨_, _, hopen⟩ := hrefusal.honest.unclosed keyword opened hreason
    -- The block is opened before the place where its end is missing, so in no later line.
    refine .unclosedBlock (mem_openers_of_isOpen hopen.isOpen) ?_
    rw [hposition, ← hoffset, hrefusal.position]
    exact line_le_line hopen.before.onward hopen.reads.onward
  -- Only an aborted parse is about nesting or a reserved word: what is left over never is.
  | nestingTooDeep limit =>
    rcases refused_of_parseWith h with ⟨a, _, rfl⟩ | ⟨_, _, _, _, rfl⟩
    · cases a <;> cases hkind
      exact .nestingTooDeep
    · exact absurd hkind ((kind_leftoverError_ne _ _ _).2 _)
  | reservedWord word =>
    rcases refused_of_parseWith h with ⟨a, hmany, rfl⟩ | ⟨_, _, _, _, rfl⟩
    · obtain ⟨_, hdue⟩ := due_of_aborted hmany
      cases a <;> cases hkind
      obtain ⟨_, hreserved, _⟩ := hdue.reserved _ _ rfl
      exact .reservedWord (List.contains_iff_mem.1 hreserved)
    · exact absurd hkind ((kind_leftoverError_ne _ _ _).1 _)
  | trailingInput => exact .trailingInput

theorem oneLine_message_of_parseWith (h : parseWith .nothing source = .error e) :
    OneLine e.kind.message := by
  obtain ⟨place, ⟨ts, hreads, hsettled, _⟩, hposition, _⟩ := reached_of_parseWith h
  have hkind := arises_of_parseWith h
  rw [hposition, offset_ofOffset hreads.onward, atOffset_pos hreads.onward] at hkind
  exact hkind.oneLine_message hsettled

/-! ## What is expected, in words -/

theorem oneLine_of_isSymbol {symbol : String} {t : Token} (h : IsSymbol symbol t) :
    OneLine symbol := by
  obtain ⟨x, hx, hchar⟩ := h
  have hone := oneLine_of_not_blank (List.forall_mem_singleton.2 (isBlank_of_ofChar? hchar))
  rwa [← hx, String.ofList_toList] at hone

/-- Keywords and symbols are no longer than a line, and the other words are set. -/
theorem Expectation.oneLine_text {x : Expectation} (h : ∃ us, us ∈ x.phrases) :
    OneLine x.text := by
  cases x with
  | literal text =>
    have htext : OneLine text := by
      obtain ⟨us, t, rfl, hsymbol | ⟨hword, rfl⟩⟩ := h
      · exact oneLine_of_isSymbol hsymbol
      · exact oneLine_of_isWord hword
    show OneLine ("`" ++ text ++ "`")
    simp +decide only [oneLine_append, htext]
  | statement | value | identifier | functionName | parameterName => decide +kernel

theorem oneLine_texts (h : f.Honest c) : ∀ item ∈ f.texts, OneLine item := by
  intro item hitem
  rw [Farthest.texts, List.mem_mergeSort] at hitem
  obtain ⟨x, hx, rfl⟩ := List.mem_map.1 hitem
  obtain ⟨_, hfits⟩ := h.expected x hx
  exact Expectation.oneLine_text hfits.occurs

/-- No expected item is a line feed or holds one. -/
theorem oneLine_items_of_parseWith (h : parseWith .nothing source = .error e) :
    ∀ item ∈ e.expected.items, OneLine item := by
  rcases refused_of_parseWith h with ⟨a, _, rfl⟩ | ⟨ss, s, hmany, _, rfl⟩
  · cases a with
    | tooDeep place => exact nofun
    | reservedWord place word => exact List.forall_mem_singleton.2 (by decide +kernel)
  · have hhonest := known_of_many (upheld_honest (start source)) (Farthest.honest_start _) hmany
    unfold leftoverError
    split
    · exact nofun
    · split
      · exact oneLine_texts hhonest
      · exact nofun

end Parser

theorem Alternatives.oneLine_text {x : Alternatives} (h : ∀ item ∈ x.items, OneLine item) :
    OneLine x.text := by
  unfold Alternatives.text
  split
  · decide
  · rename_i only _ hlast
    have honly := h only (List.mem_of_getLast? hlast)
    simp +decide only [oneLine_append, honly]
  · rename_i last hlast _
    have hone := h last (List.mem_of_getLast? hlast)
    have hothers : OneLine (", ".intercalate x.items.dropLast) :=
      oneLine_intercalate (by decide) fun item hitem => h item (List.mem_of_mem_dropLast hitem)
    simp +decide only [oneLine_append, hone, hothers]

/-! ## Lines of a diagnostic -/

/-- Lines that are each ended are as many as there are, and one more for each line feed in them. -/
theorem Text.length_lines_join (ls : List String) :
    (lines (String.join (ls.map (· ++ "\n"))).toList).length
      = ls.length + lineFeeds (ls.flatMap String.toList) := by
  induction ls with
  | nil => rfl
  | cons line ls ih =>
    obtain ⟨above, hlength, habove⟩ := exists_lines_above line.toList
    have htext : (String.join ((line :: ls).map (· ++ "\n"))).toList
        = line.toList ++ '\n' :: (String.join (ls.map (· ++ "\n"))).toList := by
      simp
    rw [htext, habove, List.length_append, hlength, ih, List.length_cons, List.flatMap_cons,
      lineFeeds_append]
    omega

namespace Diagnostic

variable {d : Diagnostic}

/-- The parts of a diagnostic but the description are on one line each. -/
structure Plain (d : Diagnostic) : Prop where
  file : OneLine d.location.file
  lineContent : OneLine d.location.lineContent
  message : OneLine d.error.kind.message
  expected : OneLine d.error.expected.text
  suggestion : ∀ keyword, d.error.suggestion = some keyword → OneLine keyword

theorem oneLine_palette (color : Bool) :
    OneLine (Palette.ofColor color).error ∧ OneLine (Palette.ofColor color).frame
      ∧ OneLine (Palette.ofColor color).note ∧ OneLine (Palette.ofColor color).suggestion
      ∧ OneLine (Palette.ofColor color).help ∧ OneLine (Palette.ofColor color).title
      ∧ OneLine (Palette.ofColor color).reset := by
  cases color <;> decide

theorem oneLine_trimEnd {content : String} (h : OneLine content) :
    OneLine (String.ofList (Text.trimEnd content.toList)) := by
  intro hfeed
  rw [String.toList_ofList, Text.trimEnd, List.mem_reverse] at hfeed
  exact h (List.mem_reverse.1 ((List.dropWhile_suffix _).subset hfeed))

theorem oneLine_pointer (location : Excerpt) : OneLine (String.ofList (pointer location)) := by
  intro hfeed
  rw [String.toList_ofList, pointer] at hfeed
  obtain ⟨c, _, hc⟩ := List.mem_map.1 hfeed
  split at hc <;> exact absurd hc (by decide)

theorem oneLine_replicate (count : Nat) : OneLine (String.ofList (List.replicate count ' ')) := by
  intro hfeed
  rw [String.toList_ofList] at hfeed
  exact absurd (List.eq_of_mem_replicate hfeed) (by decide)

/-- Two of the lines are there only with something expected, and with a suggestion. -/
theorem length_lines (d : Diagnostic) : d.lines.length
    = 5 + (if d.error.expected.isEmpty then 0 else 1)
      + (if d.error.suggestion.isSome then 1 else 0) := by
  unfold lines
  cases d.error.suggestion <;> split <;> simp

/-- Below the header there are no more lines than parts. -/
theorem Plain.oneLine_of_mem_tail (h : d.Plain) : ∀ line ∈ d.lines.tail, OneLine line := by
  obtain ⟨herror, hframe, hnote, hsuggestion, hhelp, _, hreset⟩ := oneLine_palette d.color
  have hgutter := oneLine_replicate (toString d.location.line).length
  have hcontent := oneLine_trimEnd h.lineContent
  have hpointer := oneLine_pointer d.location
  intro line hline
  simp only [lines, List.cons_append, List.nil_append, List.tail_cons, List.mem_cons,
    List.mem_append] at hline
  rcases hline with rfl | rfl | rfl | rfl | hnoted | hhelped
  · simp +decide only [oneLine_append, hframe, hreset, h.file, oneLine_toString]
  · simp +decide only [oneLine_append, hgutter, hframe, hreset]
  · simp +decide only [oneLine_append, hframe, hreset, hcontent, oneLine_toString]
  · simp +decide only [oneLine_append, hgutter, hframe, hreset, hpointer, herror]
  · split at hnoted
    · cases hnoted
    · obtain rfl := List.mem_singleton.1 hnoted
      simp +decide only [oneLine_append, hnote, hreset, h.expected]
  · split at hhelped
    · cases hhelped
    · rename_i keyword hkeyword
      obtain rfl := List.mem_singleton.1 hhelped
      simp +decide only [oneLine_append, hhelp, hreset, hsuggestion, h.suggestion keyword hkeyword]

theorem length_palette (color : Bool) : (Palette.ofColor color).error.length ≤ 7
    ∧ (Palette.ofColor color).title.length ≤ 4 ∧ (Palette.ofColor color).reset.length ≤ 4 := by
  cases color <;> decide

theorem lines_eq_header_cons (d : Diagnostic) : ∃ header, d.lines = header :: d.lines.tail
    ∧ header = (Palette.ofColor d.color).error ++ "error" ++ (Palette.ofColor d.color).reset ++ ": "
      ++ (Palette.ofColor d.color).title ++ d.error.kind.message ++ ", found " ++ d.error.found
      ++ (Palette.ofColor d.color).reset :=
  ⟨_, rfl, rfl⟩

/-- The line feeds in the lines are those of the description. -/
theorem Plain.lineFeeds_lines (h : d.Plain) :
    Text.lineFeeds (d.lines.flatMap String.toList) = Text.lineFeeds d.error.found.toList := by
  -- The description stands in the header, and all else in the header is on one line.
  obtain ⟨header, hlines, hheader⟩ := d.lines_eq_header_cons
  have htail : Text.lineFeeds (d.lines.tail.flatMap String.toList) = 0 := by
    rw [Text.lineFeeds_eq_zero_iff, List.mem_flatMap]
    rintro ⟨line, hline, hfeed⟩
    exact h.oneLine_of_mem_tail line hline hfeed
  obtain ⟨herror, _, _, _, _, htitle, hreset⟩ := oneLine_palette d.color
  have hmessage := h.message
  have hwords : OneLine "error" ∧ OneLine ": " ∧ OneLine ", found " := by decide
  rw [hlines, List.flatMap_cons, Text.lineFeeds_append, htail, hheader]
  simp only [oneLine_iff_lineFeeds] at herror htitle hreset hmessage hwords
  simp only [String.toList_append, Text.lineFeeds_append, herror, htitle, hreset, hmessage, hwords]
  omega

/-- What a diagnostic shows of an error at a place, and how much room it takes. -/
structure Laid (place : Cursor) (d : Diagnostic) : Prop where
  found : place.ShortlyDescribed d.error.found
  /-- Every part has a line, and only the description goes on over more lines. -/
  length_lines : (Text.lines d.render.toList).length
    = 5 + (if d.error.expected.isEmpty then 0 else 1) + (if d.error.suggestion.isSome then 1 else 0)
      + Text.lineFeeds d.error.found.toList
  /-- The header has a bound but for the number of a line in it. -/
  length_header : ¬place.AtMalformedNumber → ∀ header, d.lines.head? = some header →
    header.length ≤ 107 + (toString d.error.position.line).length

theorem Plain.laid {place : Cursor} (h : d.Plain) (hfound : place.ShortlyDescribed d.error.found)
    (hkind : d.error.kind.Arises place d.error.position.line) : d.Laid place where
  found := hfound
  length_lines := by rw [render, Text.length_lines_join, length_lines, h.lineFeeds_lines]
  length_header := by
    intro hplace header hhead
    obtain ⟨_, hlines, rfl⟩ := d.lines_eq_header_cons
    rw [hlines] at hhead
    obtain rfl := Option.some.inj hhead
    have hmessage := hkind.length_message_le fun start text heq => by
      rw [heq] at hkind
      cases hkind with
      | lexical herror => exact hplace ⟨start, text, herror⟩
    have hlength := hfound.described.length_le hplace
    obtain ⟨herror, htitle, hreset⟩ := length_palette d.color
    have hwords : "error".length = 5 ∧ ": ".length = 2 ∧ ", found ".length = 8 := by decide
    have hwidth : describedWidth = 24 := rfl
    simp only [String.length_append]
    omega

end Diagnostic

/-- A line of the source has no line feed in it. -/
theorem NamedSource.oneLine_line? (file : NamedSource) (number : Nat) :
    OneLine ((file.line? number).getD "") := by
  cases number with
  | zero => exact (by decide : OneLine "")
  | succ number =>
    rw [OneLine, toList_line?_succ]
    cases hline : (Text.lines file.content.toList)[number]? with
    | none => exact nofun
    | some line => exact Text.lineFeed_not_mem_of_mem_lines (List.mem_of_getElem? hline)

/-- Every error of a parse is laid out in lines of its own. -/
theorem Parser.laid_of_parseWith {source name : String} {e : ParseError} (hname : OneLine name)
    (h : parseWith .nothing source = .error e) (color : Bool) :
    ((NamedSource.mk name source).diagnostic e color).Laid
      (atOffset source e.position.offset) := by
  obtain ⟨place, ⟨ts, hreads, hsettled, _⟩, hposition, _⟩ := reached_of_parseWith h
  have hplace : atOffset source e.position.offset = place := by
    rw [hposition, offset_ofOffset hreads.onward, atOffset_pos hreads.onward]
  have hkind := arises_of_parseWith h
  have hfound : place.ShortlyDescribed e.found := by
    have hsaid := found_of_parseWith h
    have hdescribe := shortlyDescribed_describe place
    rw [hplace] at hsaid
    rwa [hsettled, ← hsaid] at hdescribe
  rw [hplace] at hkind ⊢
  refine Diagnostic.Plain.laid ?_ hfound hkind
  constructor
  case file => exact hname
  case lineContent => exact NamedSource.oneLine_line? _ _
  case message => exact oneLine_message_of_parseWith h
  case expected => exact Alternatives.oneLine_text (oneLine_items_of_parseWith h)
  case suggestion =>
    intro keyword hkeyword
    have hkeywords : ∀ word ∈ keywords, OneLine word := by decide
    exact hkeywords keyword (mem_keywords_of_parseWith h hkeyword)

/-- A description quotes no more than a short piece of the source, unless it is a malformed number,
and is broken by a line feed only with a string.  A diagnostic has a line for each of its parts, but
for that. -/
theorem descriptions_are_short (source : String) :
    (∀ offset, (atOffset source offset).afterTrivia.ShortlyDescribed
        (atOffset source offset).describe)
      ∧ ∀ name e color, OneLine name → parse source = .error e →
        ((NamedSource.mk name source).diagnostic e color).Laid
          (atOffset source e.position.offset) := by
  refine ⟨fun _ => shortlyDescribed_describe _, fun name e color hname h => ?_⟩
  have hparse : parse source = parseWith .nothing source := parseWith_tables source
  rw [hparse] at h
  exact laid_of_parseWith hname h color

/-- A stray character behind an assignment, in a source of two lines. -/
theorem descriptions_are_short_of_stray_character :
    ∃ e, parse "x = 1\n? draw" = .error e ∧ e.found = "`?`"
      ∧ ((NamedSource.mk "a.scene" "x = 1\n? draw").diagnostic e false).Laid
        (atOffset "x = 1\n? draw" e.position.offset) := by
  obtain ⟨e, he, hfound⟩ : ∃ e, parse "x = 1\n? draw" = .error e ∧ e.found = "`?`" :=
    exists_error_of_decide (by decide +kernel)
  have hname : OneLine "a.scene" := by decide
  exact ⟨e, he, hfound, (descriptions_are_short "x = 1\n? draw").2 "a.scene" e false hname he⟩

/-- The description of a malformed number is longer than that of any token, and with a string that is
broken by a line feed there is a line more than parts. -/
theorem descriptions_not_short :
    (atOffset "1aaaaaaaaaaaaaaaaaaaaaaaaaaaaa" 0).describe = "`1aaaaaaaaaaaaaaaaaaaaaaaaaaaaa`"
      ∧ describedWidth < "1aaaaaaaaaaaaaaaaaaaaaaaaaaaaa".length
      ∧ ∃ e, parse "x 'a\nb'" = .error e ∧ e.found = "`'a\nb'`" ∧ ¬OneLine e.found
        ∧ (Text.lines ((NamedSource.mk "a.scene" "x 'a\nb'").diagnostic e false).render.toList).length
          ≠ 5 + (if e.expected.isEmpty then 0 else 1) + (if e.suggestion.isSome then 1 else 0) := by
  refine ⟨by decide +kernel, by decide +kernel, ?_⟩
  exact exists_error_of_decide (by decide +kernel)

end SceneScript
