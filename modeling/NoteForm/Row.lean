import NoteForm.Note

/-! The rows of the form. -/
namespace NoteForm

/-- A labelled value at a position of the form. -/
structure Row where
  name : String
  content : String
  position : Nat
deriving DecidableEq, Repr

namespace Row

/-- Rows for fields, numbered in the order they are given. -/
def ofFields (fields : List NoteField) : List Row :=
  fields.zipIdx.map fun (field, position) => ⟨field.name, field.value, position⟩

end Row

/-- A row handed to the host of the form. A restored row brings no content; the host applies the
state that was saved under the row's previous id, if there was any. -/
inductive Line (S : Type) where
  | computed (row : Row)
  | restored (position : Nat) (previousId : Int32) (state : Option S)
deriving DecidableEq, Repr

namespace Line

variable {S : Type}

def position : Line S → Nat
  | .computed row => row.position
  | .restored position .. => position

def row? : Line S → Option Row
  | .computed row => some row
  | .restored .. => none

def isRestored : Line S → Bool
  | .computed _ => false
  | .restored .. => true

end Line
end NoteForm
