import SceneScript.Path
import SceneScript.Text.Blank
import SceneScript.Text.Line

/-!
# Settings

The user's settings file has a setting on each line, a key and a value with an equals sign between
them.  Blank lines and lines that start with a number sign say nothing, and so do unknown keys.
The last line for a key counts; the first wrong line makes the file unusable.
-/

namespace SceneScript

/-- When messages are in color.  Without a choice they are if they go to a terminal. -/
inductive ColorMode where
  | auto
  | always
  | never
  deriving DecidableEq

namespace ColorMode

/-- Whether there is color, as far as that does not depend on the terminal.  A flag against color
wins over the choice. -/
def decided? (noColor : Bool) (choice : ColorMode) : Option Bool :=
  if noColor then some false
  else match choice with
    | auto => none
    | always => some true
    | never => some false

/-- Whether there is color. -/
def isEnabled (noColor terminal : Bool) (choice : ColorMode) : Bool :=
  (choice.decided? noColor).getD terminal

/-- The choice that a word stands for. -/
def ofText? : String → Option ColorMode
  | "auto" => some auto
  | "always" => some always
  | "never" => some never
  | _ => none

end ColorMode

/-- What a user can choose. -/
structure Settings where
  /-- The path of the scene that is used when none is named. -/
  defaultScene : Option String
  color : ColorMode
  deriving DecidableEq

/-- Why a settings file is unusable.  Lines are counted from one. -/
inductive SettingsError where
  | malformedLine (line : Nat) (content : String)
  | invalidColor (line : Nat) (value : String)
  deriving DecidableEq

/-- What is wrong with the settings file, in words. -/
def SettingsError.message : SettingsError → String
  | .malformedLine line content =>
    "line " ++ toString line ++ ": expected `key=value`, found `" ++ content ++ "`"
  | .invalidColor line value =>
    "line " ++ toString line ++ ": unknown color choice `" ++ value
      ++ "` (expected always, never or auto)"

namespace Settings

/-- The settings of a user without a settings file. -/
def default : Settings := ⟨none, .auto⟩

/-- The settings with a value given to a key. -/
def set (s : Settings) (line : Nat) (key value : String) : Except SettingsError Settings :=
  if key = "default_scene" then .ok { s with defaultScene := some value }
  else if key = "color" then
    match ColorMode.ofText? value with
    | some choice => .ok { s with color := choice }
    | none => .error (.invalidColor line value)
  else .ok s

/-- The settings after a line with a number. -/
def readLine (s : Settings) (number : Nat) (line : List Char) : Except SettingsError Settings :=
  let line := Text.trim line
  if line = [] ∨ line.head? = some '#' then .ok s
  else
    let key := line.takeWhile (· != '=')
    if key.length < line.length then
      s.set number (String.ofList (Text.trim key))
        (String.ofList (Text.trim (line.drop (key.length + 1))))
    else .error (.malformedLine number (String.ofList line))

/-- The settings after some lines, of which the first has the number given. -/
def readLines (s : Settings) (number : Nat) : List (List Char) → Except SettingsError Settings
  | [] => .ok s
  | line :: lines =>
    match s.readLine number line with
    | .ok s => s.readLines (number + 1) lines
    | .error e => .error e

/-- The settings in the text of a settings file. -/
def parse (contents : String) : Except SettingsError Settings :=
  default.readLines 1 (Text.lines contents.toList)

/-- The path of the settings file: in the configuration directory, or if none is set, in that of
the home directory. -/
def path? (configHome home : Option String) : Option String :=
  let directory? := match configHome with
    | some directory => if directory.isEmpty then none else some directory
    | none => none
  let directory? := directory? <|> home.map (Path.join · ".config")
  directory?.map fun directory => Path.join (Path.join directory "scenec") "config"

end Settings

end SceneScript
