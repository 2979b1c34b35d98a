import NoteForm.Files.Archive

/-! The files that the application keeps in a directory of its own. -/
namespace NoteForm.Files

/-- The directory of the application below the directory for the data of all applications. -/
def appDirectory (dataDirectory : Path) : Path := dataDirectory.join "field-state"

def appFile (dataDirectory : Path) (name : String) : Path := (appDirectory dataDirectory).join name

def policyFileName : String := "field_state_settings.json"

/-- Every use of the directory makes it if it is missing. If that fails, the use itself will say
so. -/
def Disk.withAppDirectory (disk : Disk) (dataDirectory : Path) : Disk :=
  (disk.makeDirectories (appDirectory dataDirectory)).1

end NoteForm.Files
