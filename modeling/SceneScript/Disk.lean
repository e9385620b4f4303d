/-!
# Disks

What the program asks of a file system: what is at a path.  A disk answers in a monad, so that the
same program runs on the files of the machine and on a file tree that is a value.
-/

namespace SceneScript

/-- What is at a path. -/
inductive Entry where
  | file (bytes : ByteArray)
  | directory
  | missing
  /-- A part of the path before the last is a file. -/
  | throughFile
  /-- The path cannot be followed to its end, with the reason. -/
  | unreachable (reason : String)
  /-- Something that cannot be read, with the reason. -/
  | unreadable (reason : String)

/-- Why a path yields no text. -/
inductive ReadError where
  | notFound
  | isDirectory
  | notDirectory
  | invalidText
  | other (reason : String)
  deriving DecidableEq

/-- The words in which a system tells of an error. -/
def ReadError.message : ReadError → String
  | .notFound => "No such file or directory (os error 2)"
  | .isDirectory => "Is a directory (os error 21)"
  | .notDirectory => "Not a directory (os error 20)"
  | .invalidText => "stream did not contain valid UTF-8"
  | .other reason => reason

namespace Entry

/-- Something is there. -/
def isPresent : Entry → Bool
  | file _ | directory | unreadable _ => true
  | missing | throughFile | unreachable _ => false

/-- The text that is there. -/
def text : Entry → Except ReadError String
  | file bytes =>
    match String.fromUTF8? bytes with
    | some text => .ok text
    | none => .error .invalidText
  | directory => .error .isDirectory
  | missing => .error .notFound
  | throughFile => .error .notDirectory
  | unreachable reason | unreadable reason => .error (.other reason)

/-! ## Small facts -/

/-- A text is read just from the file that holds its UTF-8 form. -/
theorem text_eq_ok_iff {entry : Entry} {text : String} :
    entry.text = .ok text ↔ entry = .file text.toUTF8 := by
  cases entry with
  | file bytes =>
    have hdecoded : String.fromUTF8? bytes = some text ↔ bytes = text.toUTF8 := by
      unfold String.fromUTF8?
      constructor
      · intro h
        split at h
        · cases h
          rfl
        · cases h
      · rintro rfl
        exact dif_pos text.isValidUTF8
    rw [Entry.file.injEq, ← hdecoded, Entry.text]
    cases String.fromUTF8? bytes <;> simp
  | directory | missing | throughFile | unreachable _ | unreadable _ =>
    exact iff_of_false nofun nofun

end Entry

/-- A file system, told by what is at each path. -/
structure Disk (m : Type → Type) where
  entry : String → m Entry

namespace Disk

variable {m : Type → Type} [Monad m]

/-- Something is at the path. -/
def isPresent (disk : Disk m) (path : String) : m Bool :=
  return (← disk.entry path).isPresent

/-- The text at the path. -/
def read (disk : Disk m) (path : String) : m (Except ReadError String) :=
  return (← disk.entry path).text

end Disk

end SceneScript
