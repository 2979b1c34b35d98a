import NoteForm.FieldIndex

/-! Notes: the values a reader has typed into the fields of a note type. -/
namespace NoteForm

structure NoteField where
  name : String
  value : String
deriving DecidableEq, Repr

/-- A note keeps its own list of field names; it does not follow later edits of its note type. -/
structure Note where
  typeName : String
  fields : List NoteField
deriving DecidableEq, Repr

namespace Note

/-- The note of this type with nothing typed in. -/
def blank (t : NoteType) : Note where
  typeName := t.name
  fields := t.fieldNames.map fun name => ⟨name, ""⟩

/-- Replace the value of the first field of this name, and say whether there is one. -/
def setFirst (name value : String) : List NoteField → List NoteField × Bool
  | [] => ([], false)
  | field :: rest =>
      if field.name = name then ({ field with value } :: rest, true)
      else
        let done := setFirst name value rest
        (field :: done.1, done.2)

/-- The note with a value replaced, and whether there is a field of this name at all. -/
def setValue (note : Note) (name value : String) : Note × Bool :=
  let done := setFirst name value note.fields
  ({ note with fields := done.1 }, done.2)

/-- Clear the values of all fields but those that `t` declares sticky. -/
def clear (note : Note) (t : NoteType) : Note :=
  { note with fields := note.fields.map fun field =>
      if (t.index.find? field.name).any (·.sticky) then field else { field with value := "" } }

end Note
end NoteForm
