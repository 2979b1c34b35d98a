import NoteForm.Capture
import NoteForm.Rebuild
import NoteForm.Row

/-! The editor of a note decides which rows the form shows each time it is rebuilt. Rows captured
before a teardown are shown once, on the next initial load; every other rebuild computes its rows
from the fields of the note. -/
namespace NoteForm

structure Editor (S : Type) where
  /-- The captured rows that wait for an initial load. -/
  pending : Option (List (CapturedRow S))
  policy : LabelPolicy
deriving DecidableEq, Repr

namespace Editor

variable {S : Type}

def new (policy : LabelPolicy) : Editor S := ⟨none, policy⟩

def hasPending (editor : Editor S) : Bool := editor.pending.isSome

/-- The rows for the note's fields, whatever has been captured. -/
def rows (editor : Editor S) (rebuild : Rebuild) (fields : List NoteField) : List Row :=
  Row.ofFields (rebuild.fields editor.policy fields)

def rowsEvents (editor : Editor S) (rebuild : Rebuild) (fields : List NoteField) : List Event :=
  rebuild.events editor.policy fields

/-- The captured rows that a rebuild brings back. -/
def replayed? (editor : Editor S) (rebuild : Rebuild) : Option (List (CapturedRow S)) :=
  if rebuild.isInitial then editor.pending else none

/-- Lines for captured rows, numbered in the order they were captured. -/
def restore (captured : List (CapturedRow S)) : List (Line S) :=
  captured.zipIdx.map fun (row, position) => .restored position row.id row.state

/-- The lines of the rebuilt form. Rows that are brought back are pending no longer. -/
def load (editor : Editor S) (rebuild : Rebuild) (fields : List NoteField) :
    List (Line S) × Editor S :=
  match editor.replayed? rebuild with
  | some captured => (restore captured, { editor with pending := none })
  | none => ((editor.rows rebuild fields).map .computed, editor)

def loadEvents (editor : Editor S) (rebuild : Rebuild) (fields : List NoteField) : List Event :=
  match editor.replayed? rebuild with
  | some captured => [.rowsRestored captured.length]
  | none => editor.rowsEvents rebuild fields

/-- The rows of a container that can be captured, if there is a container. -/
def capturable (container : Option (Container S)) : Option (List (CapturedRow S)) :=
  container.bind fun container => container.capture.toOption

/-- Capture the rows of the container the host saved. Without a usable one nothing is pending
afterwards, not even rows captured earlier. -/
def receive (editor : Editor S) (container : Option (Container S)) : Editor S :=
  { editor with pending := capturable container }

/-- What is reported about a container by itself. -/
def captureEvents (container : Container S) : List Event :=
  match container.capture with
  | .ok _ => []
  | .error unusable => [unusable.event]

def receiveEvents (editor : Editor S) (container : Option (Container S)) : List Event :=
  ((container.map captureEvents).getD []) ++
    match capturable container with
    | some captured => [.rowsCaptured captured.length]
    | none => if editor.hasPending then [.captureDiscarded] else []

/-- Take the pending rows away, so that no load brings them back. -/
def takePending (editor : Editor S) : Option (List (CapturedRow S)) × Editor S :=
  (editor.pending, { editor with pending := none })

end Editor
end NoteForm
