import SceneScript.CommandLine.Arguments
import SceneScript.CommandLine.Output
import SceneScript.Diagnostic
import SceneScript.Parser
import SceneScript.Program.Json
import SceneScript.Program.Outline
import SceneScript.Program.Source
import SceneScript.SceneOrigin
import SceneScript.Text.Quoted
import SceneScript.Token.Dump

/-!
# Commands

The commands of the program and its main part.  A command that fails says why: a scene cannot be
read, its program cannot be printed, or so many scenes are wrong.  In the last case what is wrong has
been said before.

How JSON is printed is for a library to say: the printer is an argument.
-/

namespace SceneScript.CommandLine

/-- Why a command fails. -/
inductive Failure where
  | unreadable (name : String) (error : ReadError)
  | unprintable (reason : String)
  /-- What is wrong with so many scenes has already been said. -/
  | failed (count : Nat)
  deriving DecidableEq

/-- What is said about a failure. -/
def Failure.message : Failure → String
  | .unreadable name error => "cannot read '" ++ name ++ "': " ++ error.message
  | .unprintable reason => "cannot serialize syntax tree: " ++ reason
  | .failed count => toString count ++ " scene(s) failed"

/-- A failure that is still to be said. -/
def errorLine (failure : Failure) : Output := .err ("error: " ++ failure.message ++ "\n")

/-! ## Log lines -/

/-- A path, or that there is none. -/
def optionalPath : Option String → String
  | some path => "Some(" ++ Text.quoted path ++ ")"
  | none => "None"

/-- A choice of color as the log shows it. -/
def ColorMode.shown : ColorMode → String
  | .auto => "Auto"
  | .always => "Always"
  | .never => "Never"

/-- What has become of the settings file. -/
def settingsLine (env : Environment) (loaded : Except SettingsError Settings) : LogLine :=
  let path := LogValue.plain (optionalPath (Settings.path? env.configHome env.home))
  match loaded with
  | .error e => ⟨.warn, "scenec", "ignoring config file: " ++ e.message, [("path", path)]⟩
  | .ok settings =>
    let shown := "Config \x7b default_scene: " ++ optionalPath settings.defaultScene ++ ", color: "
      ++ ColorMode.shown settings.color ++ " \x7d"
    ⟨.debug, "scenec", "configuration", [("path", path), ("config", .plain shown)]⟩

/-- A scene is about to be read. -/
def readingLine (source : SceneOrigin) : LogLine :=
  ⟨.debug, "scenec", "reading scene", [("scene", .plain source.name)]⟩

/-- A scene is right. -/
def checkedLine (source : SceneOrigin) (p : Program) : LogLine :=
  ⟨.info, "scenec", source.name ++ ": ok, " ++ toString p.length ++ " statements", []⟩

/-- So many scenes are wrong or cannot be read. -/
def failedLine (count : Nat) : LogLine :=
  ⟨.debug, "scenec", "scenes failed", [("count", .number count)]⟩

/-- The parser gives up right where it meets this. -/
def Problem.isFatal : Problem → Bool
  | .nestingTooDeep _ | .reservedWord _ => true
  | .lexical _ | .unexpected | .unclosedBlock .. | .trailingInput => false

/-- What the parser says of a scene.  When it gives up halfway it says nothing. -/
def parserLines : Except ParseError Program → List LogLine
  | .ok p =>
    [⟨.debug, "scenec::parser", "scene parsed",
      [("statements", .number p.length), ("memo_hits", .measured), ("elapsed_us", .measured)]⟩]
  | .error e =>
    if Problem.isFatal e.kind then []
    else [⟨.debug, "scenec::parser", "scene rejected",
      [("error", .plain e.message), ("memo_hits", .measured)]⟩]

/-- What the search for a scene says when it has ended. -/
def searchLines (env : Environment) (settings : Settings) (named : Option String)
    (found : Resolution) : List LogLine :=
  let line level message fields := LogLine.mk level "scenec::config" message fields
  match named, env.scene.filter (!·.isEmpty) with
  | some _, _ => []
  | none, some path =>
    [line .debug "scene from environment" [("env", .quoted "SCENEC_SCENE"), ("value", .quoted path)]]
  | none, none =>
    let passedOver := found.missingDefault.toList.map fun path =>
      line .warn "configured default_scene does not exist" [("path", .plain path)]
    let used := if settings.defaultScene.isSome && found.missingDefault.isNone then
        [line .debug "scene from config" [("path", .plain found.source.name)]]
      else if found.source = .builtIn then
        [line .debug "no scene file found, using the demo scene" []]
      else []
    passedOver ++ used

/-! ## Texts -/

/-- A program in one of the forms. -/
def programText (printJson : Json.Printer) (form : DumpForm) (p : Program) :
    Except Failure String :=
  match form with
  | .debug => .ok (p.outline.block ++ "\n")
  | .json =>
    match printJson p.toJson with
    | .ok text => .ok (text ++ "\n")
    | .error reason => .error (.unprintable reason)
  | .source => .ok p.source

/-- A number at the right end of four columns. -/
def alignRight (n : Nat) : String := String.ofList ((toString n).toList.leftpad 4 ' ')

/-- A number at the left end of four columns. -/
def alignLeft (n : Nat) : String := String.ofList ((toString n).toList.rightpad 4 ' ')

/-- A token on a line with its place. -/
def tokenLine (text : String) (lexeme : Lexeme) : String :=
  let p := Position.ofOffset text lexeme.start
  alignRight p.line ++ ":" ++ alignLeft p.column ++ " " ++ lexeme.token.outline.line ++ "\n"

/-- The error of a source that is no sequence of tokens. -/
def lexicalFailure (text : String) (error : LexicalError) : ParseError :=
  Parser.errorAt text (.lexical error) (Cursor.atOffset text error.offset)

/-- An error in a scene. -/
def diagnosis (source : SceneOrigin) (text : String) (error : ParseError) (color : Bool) : Output :=
  .err ((NamedSource.mk source.name text).diagnostic error color).render

/-! ## Commands -/

variable {m : Type → Type} [Monad m]

/-- The text of a scene. -/
def readScene (disk : Disk m) (verbose : Bool) (source : SceneOrigin) :
    Writing m (Except Failure String) := do
  emit (logged verbose (readingLine source))
  match ← (source.read disk : m (Except ReadError String)) with
  | .ok text => return .ok text
  | .error e => return .error (.unreadable source.name e)

/-- Parses a scene, which says something of itself. -/
def parseScene (verbose : Bool) (text : String) : Writing m (Except ParseError Program) := do
  let result := SceneScript.parse text
  emit ((parserLines result).flatMap (logged verbose))
  return result

/-- Prints the program of a scene. -/
def runParse (disk : Disk m) (printJson : Json.Printer) (verbose color : Bool) (form : DumpForm)
    (source : SceneOrigin) : Writing m (Except Failure Unit) := do
  match ← readScene disk verbose source with
  | .error e => return .error e
  | .ok text =>
    match ← parseScene verbose text with
    | .error e =>
      emit [diagnosis source text e color]
      return .error (.failed 1)
    | .ok p =>
      match programText printJson form p with
      | .error e => return .error e
      | .ok shown =>
        emit [.out shown]
        return .ok ()

/-- Checks scenes one after the other and counts those that cannot be read or are wrong. -/
def runCheck (disk : Disk m) (verbose color : Bool) (files : List String) :
    Writing m (Except Failure Unit) := do
  let mut failed := 0
  for path in files do
    let source := SceneOrigin.file path
    match ← readScene disk verbose source with
    | .error e =>
      emit [errorLine e]
      failed := failed + 1
      continue
    | .ok text =>
      match ← parseScene verbose text with
      | .ok p => emit (logged verbose (checkedLine source p))
      | .error e =>
        emit [diagnosis source text e color]
        failed := failed + 1
  if 0 < failed then return .error (.failed failed) else return .ok ()

/-- Prints the tokens of a scene. -/
def runTokens (disk : Disk m) (verbose color : Bool) (source : SceneOrigin) :
    Writing m (Except Failure Unit) := do
  match ← readScene disk verbose source with
  | .error e => return .error e
  | .ok text =>
    match tokenize text with
    | .error e =>
      emit [diagnosis source text (lexicalFailure text e) color]
      return .error (.failed 1)
    | .ok lexemes =>
      emit (lexemes.map fun lexeme => .out (tokenLine text lexeme))
      return .ok ()

/-- The scene of a command that takes one. -/
def findScene (disk : Disk m) (env : Environment) (settings : Settings) (verbose : Bool)
    (named : Option String) : Writing m SceneOrigin := do
  let found : Resolution ← (SceneOrigin.resolve disk env settings named : m Resolution)
  emit ((searchLines env settings named found).flatMap (logged verbose))
  return found.source

/-! ## The whole run -/

/-- The exit code of a command, and what is still to be said. -/
def finish (verbose : Bool) : Except Failure Unit → Writing m Nat
  | .ok () => return 0
  | .error (.failed count) => do
    emit (logged verbose (failedLine count))
    return 1
  | .error failure => do
    emit [errorLine failure]
    return 1

/-- What is done after the settings are loaded. -/
def runLoaded (disk : Disk m) (printJson : Json.Printer) (env : Environment) (args : Arguments)
    (loaded : Except SettingsError Settings) : Writing m Nat := do
  let settings := match loaded with
    | .ok settings => settings
    | .error _ => .default
  let color := settings.color.isEnabled args.noColor env.terminal
  emit (logged args.verbose (settingsLine env loaded))
  let result ← match args.request with
    | .parse file form => do
      let source ← findScene disk env settings args.verbose file
      runParse disk printJson args.verbose color form source
    | .check files => runCheck disk args.verbose color files
    | .tokens file => do
      let source ← findScene disk env settings args.verbose file
      runTokens disk args.verbose color source
  finish args.verbose result

/-- A run with its arguments.  The settings are loaded before there is a log. -/
def run (disk : Disk m) (printJson : Json.Printer) (env : Environment) (args : Arguments) :
    m Outcome := do
  let loaded ← Settings.load disk env
  let (code, outputs) ← (runLoaded disk printJson env args loaded).run []
  return ⟨code, outputs⟩

end SceneScript.CommandLine
