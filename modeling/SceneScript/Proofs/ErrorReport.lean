import SceneScript.Proofs.Cursor.Places
import SceneScript.Proofs.Parser.Reached
import SceneScript.Proofs.Suggestion
import SceneScript.Proofs.Text.ByteOrder

/-!
# What an error reports

An error says where it is, what stands there, what could have stood there and what was perhaps
meant.  Errors are made in several ways: a parse may be ended at once, a program may be followed by
something else, or all alternatives may fail.  Some of the errors say what stands there in words of
their own.  In all of them the parts agree with one another and with the source.
-/

namespace SceneScript

open Cursor SceneScript.Parser

/-- The parts of an error agree with one another and with the source. -/
structure ParseError.Consistent (source : String) (e : ParseError) : Prop where
  /-- Line and column are those of the offset. -/
  position : e.position = Position.ofOffset source e.position.offset
  offset_le : e.position.offset ≤ source.utf8ByteSize
  /-- The offset is between two characters. -/
  isValid : String.Pos.Raw.IsValid source ⟨e.position.offset⟩
  /-- No trivia stands there. -/
  settled : (atOffset source e.position.offset).Settled
  /-- The place is between two tokens, so it is not inside trivia either. -/
  reached : ∃ ts, (start source).Reads ts (atOffset source e.position.offset)
  found : e.found = (atOffset source e.position.offset).describe
  /-- What is expected is in the order of its bytes, each item once. -/
  expected : e.expected.items.Pairwise fun a b => Text.bytes a < Text.bytes b
  lexical : ∀ error, e.kind = .lexical error → error.offset = e.position.offset
  suggestion : ∀ keyword, e.suggestion = some keyword → keyword ∈ keywords

variable {source : String} {e : ParseError} {c place : Cursor} {f : Farthest}

/-! ## What could have stood there -/

namespace Parser

/-- Only a literal is worded between backquotes. -/
theorem Expectation.head?_text_literal (text : String) :
    (Expectation.literal text).text.toList.head? = some '\x60' := by
  have hquote : "`".toList = ['\x60'] := by decide
  show ("`" ++ text ++ "`").toList.head? = some '\x60'
  rw [String.toList_append, String.toList_append, hquote, List.append_assoc,
    List.singleton_append, List.head?_cons]

/-- Different expectations are worded differently. -/
theorem Expectation.text_injective : Function.Injective Expectation.text := by
  have hquoted : ∀ text other : String, other.toList.head? ≠ some '\x60' →
      (Expectation.literal text).text ≠ other := by
    rintro text other hother rfl
    exact hother (Expectation.head?_text_literal text)
  intro x y h
  cases x <;> cases y
  case literal.literal text other =>
    have hquoted : "`" ++ text ++ "`" = "`" ++ other ++ "`" := h
    rw [String.append_left_inj, String.append_right_inj] at hquoted
    rw [hquoted]
  all_goals first
    | rfl
    | exact absurd h (by decide)
    | exact absurd h (hquoted _ _ (by decide))
    | exact absurd h.symm (hquoted _ _ (by decide))

namespace Farthest

theorem nodup_reach (h : f.expected.Nodup) (place : Cursor) : (f.reach place).expected.Nodup :=
  reach_cases (fun _ => List.nodup_nil) fun _ => h

theorem nodup_expect (h : f.expected.Nodup) (place : Cursor) (x : Expectation) :
    (f.expect place x).expected.Nodup := by
  have hreach := nodup_reach h place
  exact expect_cases hreach fun _ hnew => List.nodup_cons.2 ⟨hnew, hreach⟩

theorem nodup_blame (h : f.expected.Nodup) (place : Cursor) (reason : Reason) :
    (f.blame place reason).expected.Nodup := by
  have hreach := nodup_reach h place
  exact blame_cases hreach fun _ _ => hreach

/-- The words for what is expected once each are in order, each once. -/
theorem pairwise_texts (h : f.expected.Nodup) :
    f.texts.Pairwise fun a b => Text.bytes a < Text.bytes b := by
  have hsorted : f.texts.Pairwise fun a b => decide (a ≤ b) = true := by
    apply List.pairwise_mergeSort
    · intro a b c hab hbc
      rw [decide_eq_true_eq] at hab hbc ⊢
      exact String.le_trans hab hbc
    · intro a b
      rw [Bool.or_eq_true, decide_eq_true_eq, decide_eq_true_eq]
      exact String.le_total a b
  have hnodup : f.texts.Nodup :=
    (List.mergeSort_perm _ _).nodup_iff.2 (h.map Expectation.text_injective)
  refine (hsorted.and hnodup).imp fun {a b} hboth => Text.bytes_lt_of_lt ?_
  obtain ⟨hle, hne⟩ := hboth
  rw [decide_eq_true_eq] at hle
  -- equal texts would be neither less nor greater
  by_contra hnot
  exact hne (String.le_antisymm hle (String.not_lt.1 hnot))

end Farthest

theorem upheld_nodup (c₀ : Cursor) :
    Upheld c₀ {ts | Grammar.IsViable ts} (·.expected.Nodup) where
  lexical _ _ _ _ hnodup := Farthest.nodup_blame hnodup _ _
  expect _ _ _ _ _ hnodup := Farthest.nodup_expect hnodup _ _
  unclosed _ _ _ _ _ _ hnodup := Farthest.nodup_blame hnodup _ _

theorem pairwise_leftoverError (h : f.expected.Nodup) :
    (leftoverError source f place).expected.items.Pairwise
      fun a b => Text.bytes a < Text.bytes b := by
  unfold leftoverError
  split
  · exact .nil
  · split
    · exact Farthest.pairwise_texts h
    · exact .nil

theorem pairwise_expected_of_parseWith (h : parseWith .nothing source = .error e) :
    e.expected.items.Pairwise fun a b => Text.bytes a < Text.bytes b := by
  rcases refused_of_parseWith h with ⟨a, _, rfl⟩ | ⟨ss, s, hmany, _, rfl⟩
  · cases a with
    | tooDeep place => exact .nil
    | reservedWord place word => exact List.pairwise_singleton _ _
  · have hnodup : s.farthest.expected.Nodup :=
      known_of_many (upheld_nodup (start source)) List.nodup_nil hmany
    exact pairwise_leftoverError hnodup

end Parser

/-! ## What stands there -/

/-- A word that is not too long is described by itself. -/
theorem Cursor.describe_of_word? {word : String} (hc : c.Settled) (h : c.word? = some word)
    (hlength : word.toList.length ≤ describedWidth) : c.describe = "`" ++ word ++ "`" := by
  have hplace : c.afterTrivia = c := hc
  have htoken := token?_of_word? h
  have htext : c.textTo (c.afterWord word) = word.toList := by
    have hprefix : word.toList <+: c.rest := by
      rw [toList_of_word? h]
      exact List.takeWhile_prefix _
    have hle := hprefix.length_le
    have hcount : c.rest.length - (c.afterWord word).rest.length = word.toList.length := by
      rw [afterWord, rest_advance, List.length_drop]
      omega
    rw [textTo, hcount]
    exact (List.prefix_iff_eq_take.1 hprefix).symm
  simp only [describe, hplace, htoken, htext, String.ofList_toList]
  rw [if_neg (by omega)]

namespace Parser

/-- What is said to stand at a place that the source has is what stands there. -/
theorem found_errorAt (h : (start source).Onward place) (kind : Problem) :
    (errorAt source kind place).found
      = (atOffset source (errorAt source kind place).position.offset).describe := by
  show place.describe = (atOffset source (Position.ofOffset source place.pos).offset).describe
  rw [offset_ofOffset h, atOffset_pos h]

/-- A word that is said to stand at a place stands there. -/
theorem found_of_word? {word : String} (h : (start source).Onward place) (hsettled : place.Settled)
    (hword : place.word? = some word) (hlength : word.toList.length ≤ describedWidth) :
    "`" ++ word ++ "`"
      = (atOffset source (Position.ofOffset source place.pos).offset).describe := by
  rw [offset_ofOffset h, atOffset_pos h, describe_of_word? hsettled hword hlength]

theorem length_le_of_isReserved {word : String} (h : isReserved word = true) :
    word.toList.length ≤ describedWidth := by
  have hall : ∀ reserved ∈ reservedWords, reserved.toList.length ≤ describedWidth := by decide
  exact hall word (List.contains_iff_mem.1 h)

theorem word?_of_isStrayEnd (h : isStrayEnd place = true) : place.word? = some "end" := by
  unfold isStrayEnd at h
  split at h
  · rename_i after hafter
    exact (word?_of_afterKeyword? (by decide) hafter).1
  · cases h

theorem found_leftoverError (hplace : (start source).Onward place) (hsettled : place.Settled)
    (hfarthest : (start source).Onward f.place) :
    (leftoverError source f place).found
      = (atOffset source (leftoverError source f place).position.offset).describe := by
  unfold leftoverError
  split
  · rename_i hstray
    exact found_of_word? hplace hsettled (word?_of_isStrayEnd hstray) (by decide)
  · split
    · exact found_errorAt hfarthest (f.kind source)
    · exact found_errorAt hplace (trailingKind place)

theorem found_of_parseWith (h : parseWith .nothing source = .error e) :
    e.found = (atOffset source e.position.offset).describe := by
  rcases refused_of_parseWith h with ⟨a, hmany, rfl⟩ | ⟨ss, s, hmany, _, rfl⟩
  · obtain ⟨ts, hdue⟩ := due_of_aborted hmany
    cases a with
    | tooDeep place => exact found_errorAt hdue.reads.onward _
    | reservedWord place word =>
      obtain ⟨hword, hreserved, _⟩ := hdue.reserved place word rfl
      exact found_of_word? hdue.reads.onward hdue.settled hword (length_le_of_isReserved hreserved)
  · obtain ⟨⟨ts, hreads, _⟩, hlocated⟩ := located_of_many hmany
    exact found_leftoverError (hreads.onward.trans (onward_afterTrivia _))
      (settled_afterTrivia s.cursor) hlocated.onward

/-! ## What was meant -/

theorem mem_keywords_of_suggestionAt {places : List Cursor} {keyword : String}
    (h : suggestionAt places = some keyword) : keyword ∈ keywords := by
  obtain ⟨place, _, hplace⟩ := List.exists_of_findSome?_eq_some h
  obtain ⟨word, _, hsuggest⟩ := Option.bind_eq_some_iff.1 hplace
  exact mem_of_suggest hsuggest

theorem mem_keywords_of_parseWith {keyword : String} (h : parseWith .nothing source = .error e)
    (hkeyword : e.suggestion = some keyword) : keyword ∈ keywords := by
  rcases refused_of_parseWith h with ⟨a, _, rfl⟩ | ⟨ss, s, _, _, rfl⟩
  · cases a <;> cases hkeyword
  · unfold leftoverError at hkeyword
    split at hkeyword
    · cases hkeyword
    · split at hkeyword <;> exact mem_keywords_of_suggestionAt hkeyword

end Parser

/-! ## Errors -/

/-- Whatever a source is refused for, the error agrees with the source and with itself. -/
theorem consistent_of_parse_error {source : String} {e : ParseError}
    (h : parse source = .error e) : e.Consistent source := by
  have hparse : parse source = parseWith .nothing source := parseWith_tables source
  rw [hparse] at h
  obtain ⟨place, ⟨ts, hreads, hsettled, _⟩, hposition, hlexical⟩ := reached_of_parseWith h
  have honward := hreads.onward
  have hoffset : e.position.offset = place.pos := by rw [hposition, offset_ofOffset honward]
  have hplace : atOffset source e.position.offset = place := by rw [hoffset, atOffset_pos honward]
  constructor
  case position => rw [hoffset, hposition]
  case offset_le =>
    have hle := pos_le_byteLength honward
    rwa [← Text.utf8ByteSize_ofList, String.ofList_toList, ← hoffset] at hle
  case isValid =>
    rw [hoffset]
    exact isValid_pos honward
  case settled => rwa [hplace]
  case reached => exact ⟨ts, by rwa [hplace]⟩
  case found => exact found_of_parseWith h
  case expected => exact pairwise_expected_of_parseWith h
  case lexical =>
    intro error hkind
    rw [hoffset]
    exact offset_of_token?_error (hlexical error hkind)
  case suggestion => exact fun keyword => mem_keywords_of_parseWith h

/-- A misspelled command behind a comment is refused where a variable would be assigned to. -/
theorem consistent_of_misspelled_draw :
    ∃ e, parse "// \u00e4\ndrow(1)" = .error e ∧ e.position.offset = 10
      ∧ e.suggestion = some "draw" ∧ e.Consistent "// \u00e4\ndrow(1)" := by
  obtain ⟨e, he, hoffset, hsuggestion⟩ : ∃ e, parse "// \u00e4\ndrow(1)" = .error e
      ∧ e.position.offset = 10 ∧ e.suggestion = some "draw" :=
    exists_error_of_decide (by decide +kernel)
  exact ⟨e, he, hoffset, hsuggestion, consistent_of_parse_error he⟩

end SceneScript
