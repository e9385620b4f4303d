import Mathlib.Data.List.TakeWhile
import SceneScript.Disk.FileTree
import SceneScript.SceneOrigin

/-!
# The search for a scene

A scene that is not named is looked for at a path of the settings and at one in the working
directory, and if there is nothing at either there is the built-in scene.  The search asks whether
something is there, not whether it is a file.  So it ends in a scene that can be read, unless the
first thing that it comes upon is a directory or cannot be read.
-/

namespace SceneScript

/-- The settings in a text, or those of a user without settings if the text is unusable. -/
def Settings.orDefault (contents : String) : Settings :=
  match Settings.parse contents with
  | .ok settings => settings
  | .error _ => .default

/-- Something is there that is no file, and that is why it cannot be read. -/
inductive Entry.Obstructs : Entry → ReadError → Prop
  | directory : Obstructs .directory .isDirectory
  | unreadable (reason : String) : Obstructs (.unreadable reason) (.other reason)

namespace SceneOrigin

/-- The paths at which a scene is looked for that is not named. -/
def places (env : Environment) (settings : Settings) : List String :=
  settings.defaultScene.toList.map (Path.join env.workingDirectory)
    ++ [Path.join env.workingDirectory nearbySceneFile]

/-- The first of the paths at which there is something. -/
def firstPresent? (disk : Disk Id) (paths : List String) : Option String :=
  paths.find? fun path => (disk.entry path).run.isPresent

/-- The first thing that there is at one of the paths is no file. -/
def Obstructed (disk : Disk Id) (paths : List String) (error : ReadError) : Prop :=
  ∃ path, firstPresent? disk paths = some path ∧ (disk.entry path).run.Obstructs error

/-- The text is that of a file that exists, or the built-in scene. -/
inductive Holds (disk : Disk Id) : SceneOrigin → String → Prop
  | file {path text : String} : (disk.entry path).run = .file text.toUTF8 →
      Holds disk (.file path) text
  | builtIn : Holds disk .builtIn builtInScene

variable {disk : Disk Id} {env : Environment} {settings : Settings} {paths : List String}
  {source : SceneOrigin} {text : String} {error : ReadError}

/-! ## What is found -/

/-- The scene at the first of the paths at which there is something, or else the built-in one. -/
def firstOf (disk : Disk Id) (paths : List String) : SceneOrigin :=
  match firstPresent? disk paths with
  | some path => .file path
  | none => .builtIn

theorem source_configured :
    (configured disk env settings).run.source = firstOf disk (places env settings) := by
  have hnearby : (nearby disk env).run
      = firstOf disk [Path.join env.workingDirectory nearbySceneFile] := by
    show Id.run (if (disk.entry _).run.isPresent then _ else _) = _
    unfold firstOf firstPresent?
    rw [List.find?_singleton]
    split <;> rfl
  unfold configured places
  cases settings.defaultScene with
  | none => exact hnearby
  | some scene =>
    show Resolution.source (Id.run (if (disk.entry _).run.isPresent then _ else _)) = _
    unfold firstOf firstPresent?
    rw [Option.toList_some, List.map_singleton, List.singleton_append, List.find?_cons]
    cases (disk.entry (Path.join env.workingDirectory scene)).run.isPresent with
    | true => rfl
    | false => exact hnearby

/-- An environment that names no scene, or the empty one, leaves the paths. -/
theorem source_resolve (h : ∀ path, env.scene = some path → path = "") :
    (resolve disk env settings none).run.source = firstOf disk (places env settings) := by
  rw [← source_configured]
  unfold resolve
  cases hscene : env.scene with
  | none => rfl
  | some path =>
    obtain rfl := h path hscene
    rfl

/-! ## What is read -/

/-- What is read is what there is. -/
theorem holds_of_read (h : (source.read disk).run = .ok text) : source.Holds disk text := by
  cases source with
  | file path => exact .file (Entry.text_eq_ok_iff.1 h)
  | builtIn =>
    obtain rfl := Except.ok.inj h
    exact .builtIn

/-- The only thing that cannot be read is what obstructs the search, if all files hold texts. -/
theorem read_firstOf_error_iff
    (h : ∀ path bytes, (disk.entry path).run = .file bytes → ∃ text : String, bytes = text.toUTF8) :
    ((firstOf disk paths).read disk).run = .error error ↔ Obstructed disk paths error := by
  unfold firstOf Obstructed
  cases hfirst : firstPresent? disk paths with
  | none => exact iff_of_false nofun nofun
  | some path =>
    have hpresent : (disk.entry path).run.isPresent = true :=
      List.find?_some (p := fun path => (disk.entry path).run.isPresent) hfirst
    have hobstructed : (∃ other, some path = some other ∧ (disk.entry other).run.Obstructs error)
        ↔ (disk.entry path).run.Obstructs error :=
      ⟨fun ⟨_, heq, hother⟩ => Option.some.inj heq ▸ hother, fun hpath => ⟨path, rfl, hpath⟩⟩
    rw [hobstructed]
    show (disk.entry path).run.text = .error error ↔ _
    cases hentry : (disk.entry path).run with
    | file bytes =>
      obtain ⟨text, rfl⟩ := h path bytes hentry
      rw [Entry.text_eq_ok_iff.2 rfl]
      exact iff_of_false nofun nofun
    | directory => exact ⟨fun hread => Except.error.inj hread ▸ .directory, fun | .directory => rfl⟩
    | unreadable reason =>
      exact ⟨fun hread => Except.error.inj hread ▸ .unreadable reason, fun | .unreadable _ => rfl⟩
    | missing | throughFile | unreachable _ =>
      rw [hentry] at hpresent
      cases hpresent

end SceneOrigin

/-! ## Files in a tree -/

namespace FileTree

variable {tree : FileTree} {bytes : ByteArray}

theorem mem_files_of_at? {place : List String} (h : tree.at? place = .file bytes) :
    (place, bytes) ∈ tree.files := by
  unfold at? at h
  split at h
  · rename_i found hlookup
    cases h
    obtain ⟨before, after, hfiles, _⟩ := List.lookup_eq_some_iff.1 hlookup
    rw [hfiles]
    exact List.mem_append_right before (List.mem_cons_self ..)
  · split at h <;> cases h

/-- What is found as a file is one of the tree. -/
theorem exists_mem_files_of_walk {place parts : List String}
    (h : tree.walk place parts = .file bytes) : ∃ found, (found, bytes) ∈ tree.files := by
  induction parts generalizing place with
  | nil => exact ⟨place, mem_files_of_at? h⟩
  | cons part parts ih =>
    unfold walk at h
    split at h
    · exact ih h
    · cases h
    · exact ⟨place, mem_files_of_at? h⟩

theorem exists_mem_files_of_entry {directory path : String}
    (h : ((tree.disk directory).entry path).run = .file bytes) :
    ∃ found, (found, bytes) ∈ tree.files := by
  unfold disk at h
  dsimp only at h
  split at h
  · cases h
  · split at h <;> exact exists_mem_files_of_walk h

end FileTree

/-! ## The scene that is found -/

/-- Whatever the settings, a scene that is not named is found as the text of a file or as the
built-in scene, unless something that is no file obstructs the search, and that is why it then
fails. -/
theorem read_found_scene (contents : String) (disk : Disk Id) (env : Environment)
    (hscene : ∀ path, env.scene = some path → path = "")
    (htext : ∀ path bytes, (disk.entry path).run = .file bytes →
      ∃ text : String, bytes = text.toUTF8) :
    let settings := Settings.orDefault contents
    let source := (SceneOrigin.resolve disk env settings none).run.source
    let paths := SceneOrigin.places env settings
    ((∃ text, (source.read disk).run = .ok text ∧ source.Holds disk text)
        ↔ ∀ error, ¬SceneOrigin.Obstructed disk paths error)
      ∧ ∀ error, (source.read disk).run = .error error
        ↔ SceneOrigin.Obstructed disk paths error := by
  intro settings source paths
  have hsource : source = SceneOrigin.firstOf disk paths := SceneOrigin.source_resolve hscene
  have herror : ∀ error, (source.read disk).run = .error error
      ↔ SceneOrigin.Obstructed disk paths error := by
    intro error
    rw [hsource]
    exact SceneOrigin.read_firstOf_error_iff htext
  refine ⟨?_, herror⟩
  simp only [← herror]
  constructor
  · rintro ⟨text, hread, _⟩ error hfailed
    rw [hread] at hfailed
    cases hfailed
  · -- what is read without an error is the text of the scene
    intro hread
    cases hanswer : (source.read disk).run with
    | ok text => exact ⟨text, rfl, SceneOrigin.holds_of_read hanswer⟩
    | error error => exact absurd hanswer (hread error)

/-- The scene of the settings does not exist, and there is one nearby. -/
theorem read_found_scene_nearby :
    let disk := (FileTree.empty.addFile ["w", "globes.scene"] "draw(a)".toUTF8).disk "/w"
    let source := (SceneOrigin.resolve disk ⟨some "", none, none, "/w", true⟩
      (Settings.orDefault "default_scene = gone/a.scene") none).run.source
    (∀ path bytes, (disk.entry path).run = .file bytes → ∃ text : String, bytes = text.toUTF8)
      ∧ source = .file "/w/globes.scene"
      ∧ ∃ text, (source.read disk).run = .ok text ∧ source.Holds disk text := by
  intro disk source
  have htext : ∀ path bytes, (disk.entry path).run = .file bytes →
      ∃ text : String, bytes = text.toUTF8 := by
    intro path bytes hfile
    obtain ⟨_, hmem⟩ := FileTree.exists_mem_files_of_entry hfile
    cases hmem with
    | head => exact ⟨_, rfl⟩
    | tail _ hnone => cases hnone
  refine ⟨htext, by decide +kernel, ?_⟩
  refine (read_found_scene "default_scene = gone/a.scene" disk ⟨some "", none, none, "/w", true⟩
    (fun path h => (Option.some.inj h).symm) htext).1.2 ?_
  rintro error ⟨path, hfirst, hobstructs⟩
  obtain rfl : "/w/globes.scene" = path := Option.some.inj hfirst
  cases hobstructs

/-- An empty scene in the settings leads to the working directory. -/
theorem read_found_scene_obstructed :
    let disk := (FileTree.empty.addDirectory ["w"]).disk "/w"
    let source := (SceneOrigin.resolve disk ⟨none, none, none, "/w", true⟩
      (Settings.orDefault "default_scene=") none).run.source
    (∀ path bytes, (disk.entry path).run = .file bytes → ∃ text : String, bytes = text.toUTF8)
      ∧ Settings.parse "default_scene=" = .ok ⟨some "", .auto⟩
      ∧ source = .file "/w/" ∧ (source.read disk).run = .error .isDirectory := by
  intro disk source
  refine ⟨?_, by decide, by decide +kernel, by decide +kernel⟩
  intro path bytes hfile
  obtain ⟨_, hmem⟩ := FileTree.exists_mem_files_of_entry hfile
  cases hmem

end SceneScript
