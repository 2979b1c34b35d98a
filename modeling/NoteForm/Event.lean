import NoteForm.NoteType

/-! What the library reports while it works. Reports are values beside the results: no result
depends on whether anybody reads them. -/
namespace NoteForm

inductive Level where
  | trace
  | debug
  | warn
deriving DecidableEq, Repr

def Level.name : Level → String
  | .trace => "TRACE"
  | .debug => "DEBUG"
  | .warn => "WARN"

inductive Event where
  /-- An entry has a slot that the new form lacks. -/
  | slotSkipped (name : String) (slot : Slot)
  /-- The link that counts for a slot starts behind the last old field. -/
  | linkDangling (old new : Slot) (oldCount : Nat)
  | rowsComputed (count : Nat) (change : String)
  | rowsRestored (count : Nat)
  | rowsCaptured (count : Nat)
  /-- Captured rows were lost because what came after them could not be used. -/
  | captureDiscarded
  | containerUnusable (part : String)
  | fileSaved (path : String)
  | fileLoaded (path : String)
  /-- The default stands in for a file that could not be read. -/
  | loadFailed (path cause : String)
  | fileDeleted (path : String)
deriving DecidableEq, Repr

namespace Event

def level : Event → Level
  | .slotSkipped .. | .linkDangling .. => .trace
  | .captureDiscarded | .loadFailed .. => .warn
  | _ => .debug

def text : Event → String
  | .slotSkipped name slot =>
      "Skipping field '" ++ name ++ "' with out-of-range slot " ++ toString slot.toNat
  | .linkDangling old new oldCount =>
      "Remap entry " ++ toString old.toNat ++ " -> " ++ toString new.toNat ++ " points past " ++
        toString oldCount ++ " old fields"
  | .rowsComputed count change =>
      "Computed " ++ toString count ++ " field rows for " ++ change
  | .rowsRestored count => "Restoring " ++ toString count ++ " field rows from saved state"
  | .rowsCaptured count => "Captured saved state for " ++ toString count ++ " field rows"
  | .captureDiscarded =>
      "Saved state is unusable; discarding previously captured field rows"
  | .containerUnusable part => "Saved state has no usable '" ++ part ++ "'"
  | .fileSaved path => "Data saved to: " ++ path
  | .fileLoaded path => "Data loaded from: " ++ path
  | .loadFailed path cause => "Failed to load " ++ path ++ ": " ++ cause ++ ". Using defaults."
  | .fileDeleted path => "Deleted: " ++ path

/-- The line a report takes up in a log. -/
def line (event : Event) : String := event.level.name ++ " " ++ event.text

end Event
end NoteForm
