import NoteForm.Stored
import NoteForm.LabelPolicy
import NoteForm.Event
import NoteForm.Files.Disk
import NoteForm.Failure

/-! Values kept in files, each as a JSON text of its own. -/
namespace NoteForm.Files

/-- How an operation that may change the disk ends. -/
structure Outcome where
  result : Except Failure Unit
  disk : Disk
  events : List Event

variable {α : Type} [Stored α]

/-- Write a value to a file, after making the directories on the way to it. Directories remain even
if the file cannot be written. -/
def save (disk : Disk) (path : Path) (value : α) : Outcome :=
  match disk.makeDirectories path.directory with
  | (disk, .error fault) => ⟨.error (.file fault), disk, []⟩
  | (disk, .ok ()) =>
      match disk.write path (Stored.text value).toUTF8 with
      | .error fault => ⟨.error (.file fault), disk, []⟩
      | .ok written => ⟨.ok (), written, [.fileSaved path.text]⟩

/-- The value in a file; none if there is no file. -/
def read? (disk : Disk) (path : Path) : Except Failure (Option α) :=
  match disk.find? path with
  | none => .ok none
  | some _ =>
      match disk.readText path with
      | .error fault => .error (.file fault)
      | .ok text =>
          match Stored.ofText text with
          | .error fault => .error (.json fault)
          | .ok value => .ok (some value)

/-- What is reported when a file is read. A missing file is not reported. -/
def readEvents (path : Path) : Except Failure (Option α) → List Event
  | .ok (some _) => [.fileLoaded path.text]
  | _ => []

/-- Remove a file, if there is one. -/
def delete (disk : Disk) (path : Path) : Outcome :=
  match disk.find? path with
  | none => ⟨.ok (), disk, []⟩
  | some _ =>
      match disk.removeFile path with
      | .error fault => ⟨.error (.file fault), disk, []⟩
      | .ok removed => ⟨.ok (), removed, [.fileDeleted path.text]⟩

variable [Inhabited α]

/-- The value in a file, or the default if there is no file. -/
def load (disk : Disk) (path : Path) : Except Failure α :=
  (read? disk path).map (·.getD default)

/-- The value in a file, or the default if there is no file or it cannot be read. -/
def loadOrDefault (disk : Disk) (path : Path) : α :=
  match load disk path with
  | .ok value => value
  | .error _ => default

/-- What is reported when the default stands in for a file that cannot be read. -/
def defaultEvents (path : Path) : Except Failure (Option α) → List Event
  | .error failure => [.loadFailed path.text failure.message]
  | found => readEvents path found

end NoteForm.Files
