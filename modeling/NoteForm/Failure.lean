import NoteForm.Json.Fault
import NoteForm.Files.Fault
import NoteForm.FieldIndex

/-! Why an operation of the library fails. -/
namespace NoteForm

inductive Failure where
  | file (fault : Files.Fault)
  | json (fault : Json.Fault)
  | invalidArgument (text : String)
  | custom (text : String)
deriving DecidableEq, Repr

def Failure.message : Failure → String
  | .file fault => "I/O error: " ++ fault.message
  | .json fault => "JSON error: " ++ fault.message
  | .invalidArgument text => "Invalid argument: " ++ text
  | .custom text => "FieldStateError: " ++ text

def SlotFault.failure (fault : SlotFault) : Failure := .invalidArgument fault.message

end NoteForm
