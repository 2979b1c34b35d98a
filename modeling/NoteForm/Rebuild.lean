import NoteForm.Move

/-! Why the rows of the form are built again. -/
namespace NoteForm

/-- The occasion of a rebuild. Only a move changes which fields the rows show. -/
inductive Rebuild where
  | initial
  | clearKeepingSticky
  | fieldCountChanged
  | refresh
  | noteMoved (move : Move)
deriving DecidableEq, Repr

namespace Rebuild

def name : Rebuild → String
  | .initial => "init"
  | .clearKeepingSticky => "clear_keep_sticky"
  | .fieldCountChanged => "change_field_count"
  | .refresh => "refresh"
  | .noteMoved _ => "refresh_with_map"

def isInitial : Rebuild → Bool
  | .initial => true
  | _ => false

def move? : Rebuild → Option Move
  | .noteMoved move => some move
  | _ => none

/-- The fields to show when the note has these fields. -/
def fields (rebuild : Rebuild) (policy : LabelPolicy) (current : List NoteField) :
    List NoteField :=
  match rebuild.move? with
  | some move => move.fields policy current
  | none => current

/-- The reports of a rebuild that computes its rows. -/
def events (rebuild : Rebuild) (policy : LabelPolicy) (current : List NoteField) : List Event :=
  (rebuild.move?.map (·.events current)).getD [] ++
    [.rowsComputed (rebuild.fields policy current).length rebuild.name]

end Rebuild
end NoteForm
