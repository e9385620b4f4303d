import SceneScript.Proofs.Scanner.Cursor

/-!
# Runs of a scanner

A scanner can be driven by any steps in any order, and it is held between two characters of its
source by nothing but its own arithmetic.  That is enough: from a place of the source every slice of
every step exists, the scanner is left at a place of the source again, and it goes back only if it
is sent back.  What eats or scans something passes just that, or nothing; what meets an error stays
where the error is, and meets it again.
-/

namespace SceneScript

open Cursor

variable {source : String} {c : Cursor}

namespace Scanner

/-! ## Slices and places -/

/-- The slices of a source are at its places: between two characters, or at an end. -/
theorem isSome_rest?_iff (source : String) (offset : Nat) :
    (Scanner.mk source.toList offset).rest?.isSome ↔ String.Pos.Raw.IsValid source ⟨offset⟩ := by
  constructor
  · intro h
    obtain ⟨rest, hrest⟩ := Option.isSome_iff_exists.1 h
    obtain ⟨⟨front, back⟩, hsplit, rfl⟩ := Option.map_eq_some_iff.1 hrest
    obtain ⟨hsource, rfl⟩ := Text.eq_of_splitAt? hsplit
    rw [String.Pos.Raw.isValid_iff_exists_append]
    refine ⟨String.ofList front, String.ofList back, ?_, ?_⟩
    · rw [← String.ofList_append, ← hsource, String.ofList_toList]
    · rw [String.rawEndPos, Text.utf8ByteSize_ofList]
  · intro h
    obtain ⟨front, back, hsource, rfl⟩ := exists_split_of_isValid h
    have hslice := Text.sliceFrom?_append front back
    rw [← hsource] at hslice
    exact Option.isSome_iff_exists.2 ⟨back, hslice⟩

/-! ## What a step promises -/

/-- A scanner has passed the text, which stands in the source between its two offsets. -/
def Passes (source : String) (s : Scanner) (text : List Char) (t : Scanner) : Prop :=
  ∃ before below, source.toList = before ++ text ++ below ∧ s.pos = Text.byteLength before
    ∧ t.pos = Text.byteLength (before ++ text)

/-- What a step promises that has taken a scanner of a source from one offset to another. -/
structure Safe (source : String) (s : Scanner) (step : CursorStep) (answer : CursorAnswer)
    (t : Scanner) : Prop where
  source_eq : t.source = source.toList
  /-- The scanner is left between two characters, and not past the end. -/
  isValid : String.Pos.Raw.IsValid source ⟨t.pos⟩
  pos_le : (∀ offset, step ≠ .seek offset) → s.pos ≤ t.pos
  eats : step.Eats → (∃ text, step.Finds answer text ∧ s.Passes source text t)
    ∨ step.Misses answer ∧ t = s
  /-- An error is where the scanner is left, and it is met there again. -/
  failed : step.Reads → ∀ e, answer = .failed e →
    t.pos = e.offset ∧ ∀ again : CursorStep, again.Reads → t.run again = some (.failed e, t)

/-- Every step is safe from where the one before it has left the scanner. -/
inductive SafeRun (source : String) : Scanner → List CursorStep → List (CursorAnswer × Scanner) → Prop
  | nil {s : Scanner} : SafeRun source s [] []
  | cons {s t : Scanner} {step : CursorStep} {answer : CursorAnswer} {steps : List CursorStep}
      {answers : List (CursorAnswer × Scanner)} : Safe source s step answer t →
      SafeRun source t steps answers → SafeRun source s (step :: steps) ((answer, t) :: answers)

/-- What a cursor passes its scanner passes. -/
theorem passes_scanner {d : Cursor} {text : List Char} (h : (start source).Onward c)
    (hpasses : c.Passes text d) : (c.scanner source).Passes source text (d.scanner source) := by
  obtain ⟨hrest, hpos⟩ := hpasses
  obtain ⟨count, rfl⟩ := h
  refine ⟨source.toList.take count, d.rest, ?_, pos_advance_start, ?_⟩
  · have hsplit := List.take_append_drop count source.toList
    rw [List.append_assoc, ← hrest]
    exact hsplit.symm
  · rw [pos_scanner, hpos, pos_advance_start, Text.byteLength_append]

/-- A step from a place of the source answers what the cursor answers, and keeps its promises. -/
theorem safe_run {step : CursorStep} (h : (start source).Onward c)
    (hseek : ∀ offset, step = .seek offset → String.Pos.Raw.IsValid source ⟨offset⟩) :
    Safe source (c.scanner source) step (step.run source c).1
      ((step.run source c).2.scanner source) := by
  have honward := CursorStep.onward_start_run h hseek
  constructor
  case source_eq => rfl
  case isValid =>
    have hslice : (Scanner.mk source.toList (step.run source c).2.pos).rest?
        = some (step.run source c).2.rest := rest?_scanner honward
    exact (isSome_rest?_iff source _).1 (Option.isSome_iff_exists.2 ⟨_, hslice⟩)
  case pos_le => exact fun hstep => (CursorStep.onward_run hstep).pos_le
  case eats =>
    intro heats
    rcases CursorStep.eats_run heats with ⟨text, hfinds, hpasses⟩ | ⟨hmisses, hstays⟩
    · exact .inl ⟨text, hfinds, passes_scanner h hpasses⟩
    · exact .inr ⟨hmisses, by rw [hstays]⟩
  case failed =>
    intro hreads e hfailed
    obtain ⟨hsettled, herror⟩ := CursorStep.token?_of_failed hreads hfailed
    refine ⟨(offset_of_token?_error herror).symm, fun again hagain => ?_⟩
    rw [run_scanner honward, CursorStep.run_of_token?_error hagain hsettled herror]

/-- Whatever is done from a place of the source, every slice exists and every step is safe. -/
theorem runAll_scanner {steps : List CursorStep} (h : (start source).Onward c)
    (hseek : ∀ offset, .seek offset ∈ steps → String.Pos.Raw.IsValid source ⟨offset⟩) :
    ∃ answers, (c.scanner source).runAll steps = some answers
      ∧ SafeRun source (c.scanner source) steps answers
      ∧ answers = (CursorStep.runAll source c steps).map fun (answer, d) =>
        (answer, d.scanner source) := by
  induction steps generalizing c with
  | nil => exact ⟨[], rfl, .nil, rfl⟩
  | cons step steps ih =>
    have hstep : ∀ offset, step = .seek offset → String.Pos.Raw.IsValid source ⟨offset⟩ := by
      rintro offset rfl
      exact hseek offset (List.mem_cons_self ..)
    obtain ⟨answers, hanswers, hsafe, hcursor⟩ := ih (CursorStep.onward_start_run h hstep)
      fun offset hmem => hseek offset (List.mem_cons_of_mem _ hmem)
    refine ⟨_ :: answers, ?_, .cons (safe_run h hstep) hsafe, ?_⟩
    · simp only [runAll, Option.bind_eq_bind, run_scanner h, Option.bind_some, hanswers]
      rfl
    · rw [hcursor]
      rfl

end Scanner

/-- However a scanner is driven from a place of a source, no slice fails, every step is safe, and the
answers and the places are those of the cursor. -/
theorem safeRun_runAll (source : String) (offset : Nat) (steps : List CursorStep)
    (h : String.Pos.Raw.IsValid source ⟨offset⟩)
    (hseek : ∀ offset, .seek offset ∈ steps → String.Pos.Raw.IsValid source ⟨offset⟩) :
    ∃ answers, (Scanner.atOffset source offset).runAll steps = some answers
      ∧ Scanner.SafeRun source (Scanner.atOffset source offset) steps answers
      ∧ answers = (CursorStep.runAll source (Cursor.atOffset source offset) steps).map
        fun (answer, c) => (answer, c.scanner source) := by
  have honward := onward_seek h
  have hplace : Cursor.atOffset source offset = seek source offset := atOffset_pos honward
  have hscanner : Scanner.atOffset source offset
      = (Cursor.atOffset source offset).scanner source := rfl
  rw [hscanner, hplace]
  exact Scanner.runAll_scanner honward hseek

/-- A number that runs into a word is neither scanned nor read, however often, and then the scanner
is sent back over a character of two bytes, where it could not stop inside. -/
theorem safeRun_runAll_at_malformed_number :
    ∃ answers, (Scanner.atOffset "\u00e4 2x" 2).runAll
        [.lexeme, .number, .lexemes, .seek 0, .symbol "\u00e4"] = some answers
      ∧ answers.map (·.2.pos) = [3, 3, 3, 0, 2]
      ∧ Scanner.SafeRun "\u00e4 2x" (Scanner.atOffset "\u00e4 2x" 2)
        [.lexeme, .number, .lexemes, .seek 0, .symbol "\u00e4"] answers
      ∧ (Scanner.mk "\u00e4 2x".toList 1).rest? = none := by
  have hseek : ∀ offset, .seek offset ∈ [CursorStep.lexeme, .number, .lexemes, .seek 0,
      .symbol "\u00e4"] → String.Pos.Raw.IsValid "\u00e4 2x" ⟨offset⟩ := by
    intro offset hmem
    obtain rfl : offset = 0 := by simpa using hmem
    decide +kernel
  obtain ⟨answers, hanswers, hsafe, hcursor⟩ :=
    safeRun_runAll "\u00e4 2x" 2 _ (by decide +kernel) hseek
  refine ⟨answers, hanswers, ?_, hsafe, by decide⟩
  rw [hcursor]
  decide +kernel

end SceneScript
