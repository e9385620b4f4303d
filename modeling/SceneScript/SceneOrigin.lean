import SceneScript.Disk
import SceneScript.Settings

/-!
# Where a scene comes from

A scene that is not named is looked for: in the environment, in the settings, in the working
directory.  If none is found there is a scene to show what the language can do.
-/

namespace SceneScript

/-- A scene's file, or the built-in scene. -/
inductive SceneOrigin where
  | file (path : String)
  | builtIn
  deriving DecidableEq

/-- The scene that is used when there is no other. -/
def builtInScene : String :=
  "draw(sphere(<20, -5, 10>, 30, red, 0.5, 0.0))\n"
    ++ "a = sphere(<-15, -5, -10>, 30)\n"
    ++ "b = sphere(<-15, -5, -10>, 25)\n"
    ++ "draw(csg(a, b, 'difference', rgb(0.0, 1.0, 1.0), 0.0, 0.8))\n"

/-- The file that is looked for in the working directory. -/
def nearbySceneFile : String := "globes.scene"

/-- What the program sees of the process it runs in. -/
structure Environment where
  /-- The scene to use when none is named. -/
  scene : Option String
  configHome : Option String
  home : Option String
  workingDirectory : String
  /-- Messages go to a terminal. -/
  terminal : Bool

/-- How the search for a scene ended. -/
structure Resolution where
  source : SceneOrigin
  /-- The scene of the settings that was passed over because it does not exist. -/
  missingDefault : Option String

namespace SceneOrigin

/-- The name a scene is shown by. -/
def name : SceneOrigin → String
  | file path => path
  | builtIn => "<demo scene>"

variable {m : Type → Type} [Monad m]

/-- The text of the scene. -/
def read (disk : Disk m) : SceneOrigin → m (Except ReadError String)
  | file path => disk.read path
  | builtIn => return .ok builtInScene

/-- The scene in the working directory, or else the built-in one. -/
def nearby (disk : Disk m) (env : Environment) : m SceneOrigin := do
  let path := Path.join env.workingDirectory nearbySceneFile
  if ← disk.isPresent path then return .file path else return .builtIn

/-- The scene of the settings if it exists, or else one nearby. -/
def configured (disk : Disk m) (env : Environment) (settings : Settings) : m Resolution := do
  match settings.defaultScene with
  | none => return ⟨← nearby disk env, none⟩
  | some scene =>
    let path := Path.join env.workingDirectory scene
    if ← disk.isPresent path then return ⟨.file path, none⟩
    else return ⟨← nearby disk env, some path⟩

/-- The scene to use: the one that is named, that of the environment, that of the settings, the one
in the working directory, or the built-in one.  Only the last three are looked for. -/
def resolve (disk : Disk m) (env : Environment) (settings : Settings) (named : Option String) :
    m Resolution :=
  match named, env.scene with
  | some path, _ => return ⟨.file path, none⟩
  | none, some path =>
    if path.isEmpty then configured disk env settings else return ⟨.file path, none⟩
  | none, none => configured disk env settings

end SceneOrigin

/-- The settings of the user.  A settings file that cannot be read is like none. -/
def Settings.load {m : Type → Type} [Monad m] (disk : Disk m) (env : Environment) :
    m (Except SettingsError Settings) := do
  match Settings.path? env.configHome env.home with
  | none => return .ok .default
  | some path =>
    match ← disk.read path with
    | .ok contents => return Settings.parse contents
    | .error _ => return .ok .default

end SceneScript
