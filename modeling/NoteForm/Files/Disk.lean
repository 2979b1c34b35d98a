import NoteForm.Ascending
import NoteForm.Files.Fault
import NoteForm.Files.Path

/-! A file system with plain files and directories, in which nobody else writes. -/
namespace NoteForm.Files

inductive Entry where
  | file (content : ByteArray)
  | directory

/-- What there is below the root, by the names that lead there. -/
structure Disk where
  entries : List (List String × Entry)
  ascending : Ascending.Sorted Prod.fst entries

/-- The longest name of a file or directory in bytes. -/
def longestName : Nat := 255

/-- The longest text of a path in bytes. -/
def longestPath : Nat := 4095

namespace Disk

def empty : Disk := ⟨[], List.Pairwise.nil⟩

/-- What stands at a place. The root is always a directory. -/
def entry? (disk : Disk) (place : List String) : Option Entry :=
  if place.isEmpty then some .directory else (disk.entries.find? (·.1 = place)).map (·.2)

def isDirectory (disk : Disk) (place : List String) : Bool :=
  match disk.entry? place with
  | some .directory => true
  | _ => false

def put (disk : Disk) (place : List String) (entry : Entry) : Disk :=
  ⟨Ascending.put Prod.fst (place, entry) disk.entries, disk.ascending.put (place, entry)⟩

def remove (disk : Disk) (place : List String) : Disk :=
  ⟨disk.entries.filter (·.1 ≠ place), disk.ascending.filter _⟩

/-- The place a step leads to from a directory. -/
def stepFrom (place : List String) (step : String) : Except Fault (List String) :=
  if step = "." then .ok place
  else if step = ".." then .ok place.dropLast
  else if longestName < step.utf8ByteSize then .error .nameTooLong
  else .ok (place ++ [step])

/-- Follow steps from a place. Every place that is left has to be a directory. -/
def follow (disk : Disk) (place : List String) : List String → Except Fault (List String × Entry)
  | [] =>
      match disk.entry? place with
      | some entry => .ok (place, entry)
      | none => .error .notFound
  | step :: rest =>
      match disk.entry? place with
      | some .directory => do follow disk (← stepFrom place step) rest
      | some (.file _) => .error .notDirectory
      | none => .error .notFound

/-- Whether the text of a path can be handed over at all. This is asked before anything on the disk
is looked at. The empty text leads nowhere. -/
def usable (path : Path) : Except Fault Unit :=
  if path.text = "" then .error .notFound
  else if path.text.toList.contains '\x00' then .error .zeroInName
  else if longestPath < path.text.utf8ByteSize then .error .nameTooLong
  else .ok ()

/-- What a path leads to. -/
def lookUp (disk : Disk) (path : Path) : Except Fault (List String × Entry) := do
  usable path
  match disk.follow [] path.steps with
  | .ok (place, .file content) =>
      if path.endsInSlash then .error .notDirectory else .ok (place, .file content)
  | found => found

/-- A path that cannot be looked up leads to nothing. -/
def find? (disk : Disk) (path : Path) : Option (List String × Entry) :=
  (disk.lookUp path).toOption

/-- Make the directories that are missing on the way down from a directory. Those made before the
way is found to be blocked remain. -/
def makeWay (disk : Disk) (place : List String) : List String → Disk × Except Fault Unit
  | [] => (disk, .ok ())
  | name :: rest =>
      match stepFrom place name with
      | .error fault => (disk, .error fault)
      | .ok next =>
          match disk.entry? next with
          | some .directory => makeWay disk next rest
          | some (.file _) =>
              (disk, .error (if rest.isEmpty then .fileExists else .notDirectory))
          | none => makeWay (disk.put next .directory) next rest

/-- Make the directories on the way to where a path leads. For the empty path there are none to be
made. -/
def makeDirectories (disk : Disk) (path : Path) : Disk × Except Fault Unit :=
  if path.text = "" then (disk, .ok ())
  else
    match usable path with
    | .error fault => (disk, .error fault)
    | .ok () => disk.makeWay [] path.names

/-- Where a file with this path is to be written, if its directory is there. A path that says of
itself that it leads to a directory is refused before its last name is looked at. -/
def placeToWrite (disk : Disk) (path : Path) : Except Fault (List String) := do
  usable path
  let (directory, entry) ← disk.follow [] path.steps.dropLast
  match entry, path.steps.getLast? with
  | .file _, _ => .error .notDirectory
  | .directory, none => .error .isDirectory
  | .directory, some last =>
      if path.endsInSlash ∨ last = "." ∨ last = ".." then .error .isDirectory
      else do
        let place ← stepFrom directory last
        if disk.isDirectory place then .error .isDirectory else .ok place

/-- Write a file, in the place of one that may be there. -/
def write (disk : Disk) (path : Path) (content : ByteArray) : Except Fault Disk :=
  (disk.placeToWrite path).map fun place => disk.put place (.file content)

/-- The text of a file. -/
def readText (disk : Disk) (path : Path) : Except Fault String := do
  match ← disk.lookUp path with
  | (_, .directory) => .error .isDirectory
  | (_, .file content) =>
      match String.fromUTF8? content with
      | some text => .ok text
      | none => .error .notUtf8

/-- Remove a file. -/
def removeFile (disk : Disk) (path : Path) : Except Fault Disk := do
  match ← disk.lookUp path with
  | (_, .directory) => .error .isDirectory
  | (place, .file _) => .ok (disk.remove place)

/-- All paths below a place, in the order of their texts. Directories end in a slash. -/
def listing (disk : Disk) (place : List String) : List String :=
  Ascending.arrange id <| disk.entries.filterMap fun (names, entry) =>
    if place.isPrefixOf names ∧ place ≠ names then
      let text := "/".intercalate (names.drop place.length)
      some (match entry with
        | .file _ => text
        | .directory => text ++ "/")
    else none

end Disk
end NoteForm.Files
