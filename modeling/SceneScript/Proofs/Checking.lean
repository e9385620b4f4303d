import Mathlib.Data.List.Forall2
import SceneScript.CommandLine.Commands
import SceneScript.Disk.FileTree

/-!
# Scenes are checked apart from one another

A run that checks scenes says one thing about each file, in the order of the files: that the scene is
right, or what is wrong with it, or that it cannot be read.  What is said about a file depends on that
file alone, so a run over several files says what the runs over the single files say.  Only the
warning that the settings are not used stands before all that once, and a verbose log has lines
between.

The loop over the files counts the failures.  In one turn it adds to what is written what one file
comes to, and by induction the whole loop adds what all the files come to.
-/

namespace SceneScript.CommandLine

/-- The output is a diagnostic or an error, or a line that informs about a scene. -/
def Output.isReport : Output → Bool
  | .out _ => false
  | .err _ => true
  | .log line => line.level == .info

/-- The output is a line of the log at a level. -/
def Output.isAt (level : LogLevel) : Output → Bool
  | .log line => line.level == level
  | .out _ | .err _ => false

/-- What a run says about scenes. -/
def Outcome.reports (o : Outcome) : List Output := o.outputs.filter (·.isReport)

/-- What a run warns about. -/
def Outcome.warnings (o : Outcome) : List Output := o.outputs.filter (·.isAt .warn)

/-- The file holds the UTF-8 form of a text that is a scene. -/
def IsScene (disk : Disk Id) (path : String) : Prop :=
  ∃ text p, (disk.entry path).run = .file text.toUTF8 ∧ SceneScript.parse text = .ok p

/-- What is said about a file that is checked, by what is in it. -/
inductive ReportOn (disk : Disk Id) (color : Bool) (path : String) : Output → Prop
  | unreadable {e : ReadError} : (disk.entry path).run.text = .error e →
      ReportOn disk color path (.err ("error: cannot read '" ++ path ++ "': " ++ e.message ++ "\n"))
  | rejected {text : String} {e : ParseError} : (disk.entry path).run = .file text.toUTF8 →
      SceneScript.parse text = .error e →
      ReportOn disk color path (.err ((NamedSource.mk path text).diagnostic e color).render)
  | accepted {text : String} {p : Program} : (disk.entry path).run = .file text.toUTF8 →
      SceneScript.parse text = .ok p →
      ReportOn disk color path (.log ⟨.info, "scenec",
        path ++ ": ok, " ++ toString p.length ++ " statements", []⟩)

/-- The settings that count in a run. -/
def settingsOf (disk : Disk Id) (env : Environment) : Settings :=
  match (Settings.load disk env).run with
  | .ok settings => settings
  | .error _ => .default

/-- The outcome of a check of some files is made up of the outcomes of checks of the single files. -/
structure Outcome.MadeUp (disk : Disk Id) (color : Bool) (files : List String)
    (single : String → Outcome) (o : Outcome) : Prop where
  reports : o.reports = files.flatMap fun file => (single file).reports
  /-- One thing is said about each file, as often as it is named. -/
  each : List.Forall₂ (ReportOn disk color) files o.reports
  /-- The settings are warned about once, and first. -/
  outputs : o.outputs.filter (!·.isAt .debug) = o.warnings ++ o.reports
  length_warnings : o.warnings.length ≤ 1
  warnings : ∀ file ∈ files, o.warnings = (single file).warnings
  no_out : ∀ text, .out text ∉ o.outputs
  code_zero : o.code = 0 ↔ ∀ file ∈ files, IsScene disk file
  code_one : o.code ≠ 0 → o.code = 1

variable {disk : Disk Id} {env : Environment} {printJson : Json.Printer} {verbose color noColor : Bool}
  {path : String} {output : Output} {files : List String}

/-! ## One file -/

/-- Whether a file is a scene, and what is said about it. -/
def verdict (disk : Disk Id) (color : Bool) (path : String) : Bool × Output :=
  match (disk.entry path).run.text with
  | .error e => (false, errorLine (.unreadable path e))
  | .ok text =>
    match SceneScript.parse text with
    | .ok p => (true, .log (checkedLine (.file path) p))
    | .error e => (false, diagnosis (.file path) text e color)

/-- What a verbose log says about a file. -/
def asides (disk : Disk Id) (verbose : Bool) (path : String) : List Output :=
  logged verbose (readingLine (.file path))
    ++ match (disk.entry path).run.text with
      | .error _ => []
      | .ok text => (parserLines (SceneScript.parse text)).flatMap (logged verbose)

/-- How many of the files are no scenes. -/
def failures (disk : Disk Id) (color : Bool) (files : List String) : Nat :=
  files.countP fun path => !(verdict disk color path).1

/-- A file is right just if it holds a scene. -/
theorem verdict_iff : (verdict disk color path).1 = true ↔ IsScene disk path := by
  unfold verdict IsScene
  cases htext : (disk.entry path).run.text with
  | error e =>
    refine iff_of_false Bool.false_ne_true ?_
    rintro ⟨text, p, hentry, _⟩
    rw [Entry.text_eq_ok_iff.2 hentry] at htext
    cases htext
  | ok text =>
    have hentry := Entry.text_eq_ok_iff.1 htext
    dsimp only
    cases hparse : SceneScript.parse text with
    | ok p => exact iff_of_true rfl ⟨text, p, hentry, hparse⟩
    | error e =>
      refine iff_of_false Bool.false_ne_true ?_
      rintro ⟨text', p, hentry', hparse'⟩
      rw [Entry.text_eq_ok_iff.2 hentry', Except.ok.injEq] at htext
      subst htext
      rw [hparse] at hparse'
      cases hparse'

theorem reportOn_verdict (disk : Disk Id) (color : Bool) (path : String) :
    ReportOn disk color path (verdict disk color path).2 := by
  unfold verdict
  cases htext : (disk.entry path).run.text with
  | error e => exact .unreadable htext
  | ok text =>
    have hentry := Entry.text_eq_ok_iff.1 htext
    dsimp only
    cases hparse : SceneScript.parse text with
    | ok p => exact .accepted hentry hparse
    | error e => exact .rejected hentry hparse

theorem ReportOn.isReport (h : ReportOn disk color path output) : output.isReport = true := by
  cases h <;> rfl

theorem ReportOn.isAt {level : LogLevel} (h : ReportOn disk color path output) (hlevel : level ≠ .info) :
    output.isAt level = false := by
  cases h with
  | unreadable | rejected => rfl
  | accepted =>
    show (LogLevel.info == level) = false
    simpa using Ne.symm hlevel

theorem eq_of_mem_logged {line : LogLine} (h : output ∈ logged verbose line) :
    output = .log line := by
  unfold logged at h
  split at h
  · cases h
  · exact List.mem_singleton.1 h

theorem level_of_mem_parserLines {result : Except ParseError Program} {line : LogLine}
    (h : line ∈ parserLines result) : line.level = .debug := by
  unfold parserLines at h
  split at h
  · rw [List.mem_singleton.1 h]
  · split at h
    · cases h
    · rw [List.mem_singleton.1 h]

/-- What a verbose log says about a file is for debugging. -/
theorem isAt_of_mem_asides (h : output ∈ asides disk verbose path) :
    ∃ line, output = .log line ∧ line.level = .debug := by
  rcases List.mem_append.1 h with hreading | hparser
  · exact ⟨_, eq_of_mem_logged hreading, rfl⟩
  · split at hparser
    · cases hparser
    · obtain ⟨line, hline, houtput⟩ := List.mem_flatMap.1 hparser
      exact ⟨line, eq_of_mem_logged houtput, level_of_mem_parserLines hline⟩

/-! ## The loop -/

/-- A loop that counts and writes in each turn counts and writes all that its turns do. -/
theorem run_forIn (right : String → Bool) (adds : String → List Output)
    {body : String → Nat → Writing Id (ForInStep Nat)}
    (hbody : ∀ path failed outputs, ((body path failed).run outputs).run
      = (.yield (if right path then failed else failed + 1), outputs ++ adds path))
    (files : List String) (failed : Nat) (outputs : List Output) :
    ((forIn files failed body).run outputs).run
      = (failed + files.countP (!right ·), outputs ++ files.flatMap adds) := by
  -- on the files, with what has been counted and written before them
  induction files generalizing failed outputs with
  | nil => simp
  | cons path files ih =>
    have hturn := hbody path failed outputs
    rw [List.forIn_cons, StateT.run_bind, Id.run_bind, hturn]
    dsimp only
    rw [ih, List.flatMap_cons, List.append_assoc, List.countP_cons]
    cases right path <;> simp [Nat.add_assoc, Nat.add_comm]

theorem run_readScene (disk : Disk Id) (verbose : Bool) (path : String) (outputs : List Output) :
    ((readScene disk verbose (.file path)).run outputs).run
      = ((disk.entry path).run.text.mapError (.unreadable path),
        outputs ++ logged verbose (readingLine (.file path))) := by
  cases htext : (disk.entry path).run.text with
  | ok text =>
    have hread : (SceneOrigin.file path).read disk = (pure (.ok text) : Id _) := htext
    rw [readScene, hread]
    rfl
  | error e =>
    have hread : (SceneOrigin.file path).read disk = (pure (.error e) : Id _) := htext
    rw [readScene, hread]
    rfl

theorem run_parseScene (verbose : Bool) (text : String) (outputs : List Output) :
    ((parseScene verbose text : Writing Id _).run outputs).run
      = (SceneScript.parse text,
        outputs ++ (parserLines (SceneScript.parse text)).flatMap (logged verbose)) := rfl

theorem run_runCheck (files : List String) (outputs : List Output) :
    ((runCheck disk verbose color files).run outputs).run
      = (if 0 < failures disk color files then .error (.failed (failures disk color files))
          else .ok (),
        outputs ++ files.flatMap fun path =>
          asides disk verbose path ++ [(verdict disk color path).2]) := by
  unfold runCheck
  rw [StateT.run_bind, Id.run_bind, run_forIn (fun path => (verdict disk color path).1)
    fun path => asides disk verbose path ++ [(verdict disk color path).2]]
  · rw [Nat.zero_add]
    unfold failures
    dsimp only
    split <;> rfl
  · intro path failed outputs
    dsimp only
    rw [StateT.run_bind, Id.run_bind, run_readScene]
    cases htext : (disk.entry path).run.text with
    | error e => simp [verdict, asides, htext, Except.mapError]
    | ok text =>
      dsimp only [Except.mapError]
      rw [StateT.run_bind, Id.run_bind, run_parseScene]
      cases hparse : SceneScript.parse text with
      | ok p => simp [verdict, asides, htext, hparse, logged, checkedLine]
      | error e => simp [verdict, asides, htext, hparse]

/-! ## The whole run -/

/-- What a verbose log says at the end of a check. -/
def closing (verbose : Bool) (failed : Nat) : List Output :=
  if 0 < failed then logged verbose (failedLine failed) else []

theorem run_check (disk : Disk Id) (printJson : Json.Printer) (env : Environment)
    (verbose noColor : Bool) (files : List String) :
    let color := (settingsOf disk env).color.isEnabled noColor env.terminal
    (run disk printJson env ⟨verbose, noColor, .check files⟩).run
      = ⟨if 0 < failures disk color files then 1 else 0,
        logged verbose (settingsLine env (Settings.load disk env).run)
          ++ (files.flatMap fun path => asides disk verbose path ++ [(verdict disk color path).2])
          ++ closing verbose (failures disk color files)⟩ := by
  intro color
  have hrun : (run disk printJson env ⟨verbose, noColor, .check files⟩).run
      = let checked := ((runCheck disk verbose color files).run
          (logged verbose (settingsLine env (Settings.load disk env).run))).run
        let ended := ((finish verbose checked.1 : Writing Id Nat).run checked.2).run
        ⟨ended.1, ended.2⟩ := rfl
  rw [hrun, run_runCheck]
  unfold closing
  dsimp only
  split
  · rfl
  · simp [finish]

/-! ## Reports and warnings -/

/-- What is for debugging is passed over where the reports, or all but the debugging, are wanted. -/
theorem filter_eq_nil_of_debug {keep : Output → Bool} {outputs : List Output}
    (hkeep : ∀ line : LogLine, line.level = .debug → keep (.log line) = false)
    (hdebug : ∀ output ∈ outputs, ∃ line : LogLine, output = .log line ∧ line.level = .debug) :
    outputs.filter keep = [] := by
  refine List.filter_eq_nil_iff.2 fun output houtput => ?_
  obtain ⟨line, rfl, hline⟩ := hdebug output houtput
  simp [hkeep line hline]

theorem exists_of_mem_closing {failed : Nat} (h : output ∈ closing verbose failed) :
    ∃ line : LogLine, output = .log line ∧ line.level = .debug := by
  unfold closing at h
  split at h
  · exact ⟨_, eq_of_mem_logged h, rfl⟩
  · cases h

/-- What is kept of a whole check, but for the debugging, is kept of the settings and the verdicts. -/
theorem filter_outputs {keep : Output → Bool}
    (hkeep : ∀ line : LogLine, line.level = .debug → keep (.log line) = false)
    (written : List Output) (failed : Nat) :
    (written ++ (files.flatMap fun path =>
        asides disk verbose path ++ [(verdict disk color path).2]) ++ closing verbose failed).filter keep
      = written.filter keep ++ (files.map fun path => (verdict disk color path).2).filter keep := by
  have hturns : (files.flatMap fun path =>
        asides disk verbose path ++ [(verdict disk color path).2]).filter keep
      = (files.map fun path => (verdict disk color path).2).filter keep := by
    induction files with
    | nil => rfl
    | cons path files ih =>
      rw [List.flatMap_cons, List.filter_append, List.filter_append, ih,
        filter_eq_nil_of_debug hkeep fun _ => isAt_of_mem_asides, List.nil_append, List.map_cons,
        List.filter_cons, List.filter_cons]
      split <;> rfl
  rw [List.filter_append, List.filter_append, hturns,
    filter_eq_nil_of_debug hkeep fun _ => exists_of_mem_closing, List.append_nil]

/-- The settings are not reported on, and only warned about or told for debugging. -/
theorem level_settingsLine (env : Environment) (loaded : Except SettingsError Settings) :
    (settingsLine env loaded).level = .warn ∨ (settingsLine env loaded).level = .debug := by
  unfold settingsLine
  cases loaded with
  | ok settings => exact .inr rfl
  | error e => exact .inl rfl

theorem filter_settings {keep : Output → Bool} (env : Environment)
    (loaded : Except SettingsError Settings)
    (hwarn : keep (.log (settingsLine env loaded)) = ((settingsLine env loaded).level == .warn)) :
    (logged verbose (settingsLine env loaded)).filter keep
      = (logged verbose (settingsLine env loaded)).filter (·.isAt .warn) := by
  unfold logged
  split
  · rfl
  · rw [List.filter_cons, List.filter_cons, hwarn]
    rfl

/-- A check reports on each file, in order. -/
theorem reports_check (disk : Disk Id) (printJson : Json.Printer) (env : Environment)
    (verbose noColor : Bool) (files : List String) :
    (run disk printJson env ⟨verbose, noColor, .check files⟩).run.reports
      = files.map fun path =>
        (verdict disk ((settingsOf disk env).color.isEnabled noColor env.terminal) path).2 := by
  -- what is said of the settings is debugging or a warning, and no report
  have hsettings : (logged verbose (settingsLine env (Settings.load disk env).run)).filter
      (·.isReport) = [] := by
    refine List.filter_eq_nil_iff.2 fun output houtput => ?_
    rw [eq_of_mem_logged houtput]
    rcases level_settingsLine env (Settings.load disk env).run with h | h <;>
      simp [Output.isReport, h]
  unfold Outcome.reports
  rw [run_check]
  dsimp only
  rw [filter_outputs (fun line hline => by simp [Output.isReport, hline]), hsettings,
    List.nil_append]
  refine List.filter_eq_self.2 fun output houtput => ?_
  obtain ⟨path, -, rfl⟩ := List.mem_map.1 houtput
  exact (reportOn_verdict disk _ path).isReport

/-- A check warns about the settings and about nothing else. -/
theorem warnings_check (disk : Disk Id) (printJson : Json.Printer) (env : Environment)
    (verbose noColor : Bool) (files : List String) :
    (run disk printJson env ⟨verbose, noColor, .check files⟩).run.warnings
      = (logged verbose (settingsLine env (Settings.load disk env).run)).filter (·.isAt .warn) := by
  unfold Outcome.warnings
  rw [run_check]
  dsimp only
  rw [filter_outputs (fun line hline => by simp [Output.isAt, hline]), List.append_right_eq_self]
  refine List.filter_eq_nil_iff.2 fun output houtput => ?_
  obtain ⟨path, -, rfl⟩ := List.mem_map.1 houtput
  have hlevel : LogLevel.warn ≠ .info := nofun
  simp [(reportOn_verdict disk _ path).isAt hlevel]

/-- But for the debugging, a check warns and then reports. -/
theorem outputs_check (disk : Disk Id) (printJson : Json.Printer) (env : Environment)
    (verbose noColor : Bool) (files : List String) :
    (run disk printJson env ⟨verbose, noColor, .check files⟩).run.outputs.filter (!·.isAt .debug)
      = (run disk printJson env ⟨verbose, noColor, .check files⟩).run.warnings
        ++ (run disk printJson env ⟨verbose, noColor, .check files⟩).run.reports := by
  rw [warnings_check, reports_check, run_check]
  dsimp only
  rw [filter_outputs (fun line hline => by simp [Output.isAt, hline]), filter_settings]
  · congr 1
    refine List.filter_eq_self.2 fun output houtput => ?_
    obtain ⟨path, -, rfl⟩ := List.mem_map.1 houtput
    have hlevel : LogLevel.debug ≠ .info := nofun
    simp [(reportOn_verdict disk _ path).isAt hlevel]
  · rcases level_settingsLine env (Settings.load disk env).run with h | h <;> simp [Output.isAt, h]

theorem failures_eq_zero_iff (disk : Disk Id) (color : Bool) (files : List String) :
    failures disk color files = 0 ↔ ∀ file ∈ files, IsScene disk file := by
  unfold failures
  rw [List.countP_eq_zero]
  simp [verdict_iff]

/-- A check of files is made up of checks of the single files: what is said is what they say, in
order, and the settings are warned about once. -/
theorem check_files_apart (disk : Disk Id) (printJson : Json.Printer) (env : Environment)
    (verbose noColor : Bool) (files : List String) :
    (run disk printJson env ⟨verbose, noColor, .check files⟩).run.MadeUp disk
      ((settingsOf disk env).color.isEnabled noColor env.terminal) files
      fun file => (run disk printJson env ⟨verbose, noColor, .check [file]⟩).run where
  reports := by
    simp only [reports_check, List.map_singleton]
    exact List.map_eq_flatMap
  each := by
    rw [reports_check, List.forall₂_map_right_iff]
    exact List.forall₂_same.2 fun file _ => reportOn_verdict disk _ file
  outputs := outputs_check ..
  length_warnings := by
    rw [warnings_check]
    refine Nat.le_trans (List.length_filter_le ..) ?_
    unfold logged
    split <;> simp
  warnings := fun file _ => by rw [warnings_check, warnings_check]
  no_out := by
    intro text htext
    -- A text would be left among the warnings and reports, but it is neither.
    have hkept := (List.mem_filter (p := (!·.isAt .debug))).2 ⟨htext, rfl⟩
    rw [outputs_check] at hkept
    rcases List.mem_append.1 hkept with h | h <;> cases (List.mem_filter.1 h).2
  code_zero := by
    refine Iff.trans ?_ (failures_eq_zero_iff disk
      ((settingsOf disk env).color.isEnabled noColor env.terminal) files)
    rw [run_check]
    dsimp only
    split <;> omega
  code_one := by
    rw [run_check]
    dsimp only
    split <;> simp

/-- A scene between one with an `end` too many and a file that does not exist, and the first once
more. -/
theorem check_files_apart_around_scene :
    ∃ (tree : FileTree) (o : Outcome) (single : String → Outcome) (stray : String),
      tree = (FileTree.empty.addFile ["w", "bad"] "a = 1 end".toUTF8).addFile
        ["w", "-good"] "draw(cube(1))".toUTF8
      ∧ o = (run (tree.disk "/w") (fun _ => .error "no printer") ⟨none, none, none, "/w", true⟩
        ⟨false, true, .check ["bad", "-good", "gone", "bad"]⟩).run
      ∧ o.MadeUp (tree.disk "/w") false ["bad", "-good", "gone", "bad"] single
      ∧ stray = "error: unexpected trailing input, found `end`\n"
        ++ "  --> bad:1:7\n    |\n  1 | a = 1 end\n    |       ^--- here\n"
      ∧ o.outputs = [.err stray, .log ⟨.info, "scenec", "-good: ok, 1 statements", []⟩,
        .err "error: cannot read 'gone': No such file or directory (os error 2)\n", .err stray]
      ∧ o.code = 1 ∧ (single "-good").code = 0 ∧ (single "gone").code = 1 := by
  have hmade := check_files_apart (((FileTree.empty.addFile ["w", "bad"] "a = 1 end".toUTF8).addFile
    ["w", "-good"] "draw(cube(1))".toUTF8).disk "/w") (fun _ => .error "no printer")
    ⟨none, none, none, "/w", true⟩ false true ["bad", "-good", "gone", "bad"]
  refine ⟨_, _, _, _, rfl, rfl, hmade, rfl, ?_, ?_, ?_, ?_⟩
  all_goals decide +kernel

end SceneScript.CommandLine
