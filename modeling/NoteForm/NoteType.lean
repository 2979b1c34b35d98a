import NoteForm.Ascending

/-! Note types: which fields a note has, and in which slot of the form each one stands. -/
namespace NoteForm

/-- A position in the form of a note type, counted from zero. -/
abbrev Slot := UInt64

/-- A field as its note type declares it. A sticky field keeps its value when the form is cleared
for the next note. -/
structure FieldDefinition where
  name : String
  slot : Slot
  sticky : Bool
deriving DecidableEq, Repr

/-- A note type as it is stored. Nothing forces its names to differ or its slots to be in use
exactly once; `FieldIndex.check` says whether they are. -/
structure NoteType where
  id : UInt64
  name : String
  fields : List FieldDefinition
deriving DecidableEq, Repr

namespace NoteType

/-- The note type that declares these field names in this order, none of them sticky. -/
def ofNames (name : String) (fieldNames : List String) : NoteType where
  id := 0
  name := name
  fields := fieldNames.zipIdx.map fun (fieldName, position) =>
    ⟨fieldName, UInt64.ofNat position, false⟩

/-- The declared names in slot order. Definitions in the same slot keep their declared order. -/
def fieldNames (t : NoteType) : List String :=
  (Ascending.arrange (·.slot) t.fields).map (·.name)

end NoteType
end NoteForm
