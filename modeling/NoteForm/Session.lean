import NoteForm.Editor

/-! Sessions: what an editor is asked to do, one request after the other. -/
namespace NoteForm.Editor

variable {S : Type}

inductive Request (S : Type) where
  /-- A container has been saved, or there is none. -/
  | receive (container : Option (Container S))
  /-- The form is rebuilt. -/
  | load (rebuild : Rebuild) (fields : List NoteField)
  /-- The rows are asked for without a look at what has been captured. -/
  | rows (rebuild : Rebuild) (fields : List NoteField)
  | takePending

inductive Reply (S : Type) where
  | received
  | lines (lines : List (Line S))
  | rows (rows : List Row)
  | taken (captured : Option (List (CapturedRow S)))
deriving DecidableEq, Repr

/-- The reply to a request, and the editor afterwards. -/
def answer (editor : Editor S) : Request S → Reply S × Editor S
  | .receive container => (.received, editor.receive container)
  | .load rebuild fields =>
      let (lines, after) := editor.load rebuild fields
      (.lines lines, after)
  | .rows rebuild fields => (.rows (editor.rows rebuild fields), editor)
  | .takePending =>
      let (captured, after) := editor.takePending
      (.taken captured, after)

/-- What is reported while a request is answered. -/
def answerEvents (editor : Editor S) : Request S → List Event
  | .receive container => editor.receiveEvents container
  | .load rebuild fields => editor.loadEvents rebuild fields
  | .rows rebuild fields => editor.rowsEvents rebuild fields
  | .takePending => []

/-- The replies to the requests of a session, and the editor at its end. -/
def run (editor : Editor S) : List (Request S) → List (Reply S) × Editor S
  | [] => ([], editor)
  | request :: rest =>
      let (reply, after) := editor.answer request
      let (replies, final) := after.run rest
      (reply :: replies, final)

end NoteForm.Editor
