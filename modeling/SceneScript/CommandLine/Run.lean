import SceneScript.CommandLine.Commands
import SceneScript.CommandLine.Words
import SceneScript.Text.Control

/-!
# Runs of the command line

A run from the words of its command line to the text of its log.  What libraries do for the program
is put in here: the words are understood, JSON is printed, and the lines of the log are laid out.
-/

namespace SceneScript.CommandLine

/-- A value of a field as it is written. -/
def LogValue.text : LogValue → String
  | .plain text => text
  | .quoted text => Text.quoted text
  | .number value => toString value
  | .measured => "_"

/-- A level as it stands before a line. -/
def LogLevel.text : LogLevel → String
  | .debug => "DEBUG"
  | .info => "INFO"
  | .warn => "WARN"

/-- The line as it is written.  Only its message has the controls of a terminal escaped. -/
def LogLine.text (l : LogLine) : String :=
  let fields := l.fields.map fun (name, value) => " " ++ name ++ "=" ++ value.text
  l.level.text ++ " " ++ l.speaker ++ ": " ++ Text.escapeControls l.message ++ String.join fields

/-- A run with the words as they were given, which may make no sense. -/
def runArguments {m : Type → Type} [Monad m] (disk : Disk m) (env : Environment)
    (words : List String) : m Outcome :=
  match read words with
  | some args => run disk (fun json => .ok json.pretty) env args
  | none => return ⟨2, []⟩

end SceneScript.CommandLine
