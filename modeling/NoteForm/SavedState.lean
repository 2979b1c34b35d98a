import NoteForm.Ascending

/-! The container in which the host of the form keeps its state across a teardown. -/
namespace NoteForm

/-- States by the id of the view they were saved under. -/
structure Views (S : Type) where
  entries : List (Int32 × S)
  ascending : Ascending.Sorted Prod.fst entries
deriving DecidableEq, Repr

namespace Views

variable {S : Type}

/-- Gather states; of those under the same id the last counts. -/
def ofList (states : List (Int32 × S)) : Views S :=
  ⟨Ascending.putAll Prod.fst states [], Ascending.Sorted.putAll List.Pairwise.nil states⟩

def find? (views : Views S) (id : Int32) : Option S :=
  (views.entries.find? (·.1 = id)).map (·.2)

end Views

structure ViewHierarchy (S : Type) where
  views : Option (Views S)
deriving DecidableEq, Repr

/-- Only the ids of the rows, in display order, and the states of the views matter to the form.
Either part may be absent. -/
structure SavedState (S : Type) where
  viewIds : Option (List Int32)
  hierarchy : Option (ViewHierarchy S)
deriving DecidableEq, Repr

namespace SavedState

variable {S : Type}

def empty : SavedState S := ⟨none, none⟩

instance : Inhabited (SavedState S) := ⟨empty⟩

/-- The container for rows in display order, each with its id and its state. -/
def ofRows (rows : List (Int32 × S)) : SavedState S :=
  ⟨some (rows.map (·.1)), some ⟨some (Views.ofList rows)⟩⟩

end SavedState
end NoteForm
