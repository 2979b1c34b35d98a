import NoteForm.SavedState
import NoteForm.Json.Basic
import NoteForm.Decimal.Notation
import NoteForm.Event

/-! What is kept of a saved container: one row for each listed id, with the state saved under it. -/
namespace NoteForm

/-- A captured row. A row without a state keeps its place among the others. -/
structure CapturedRow (S : Type) where
  id : Int32
  state : Option S
deriving DecidableEq, Repr

/-- One row for each id, in the order of the ids and with their repetitions. -/
def capture {S : Type} (ids : List Int32) (stateOf : Int32 → Option S) : List (CapturedRow S) :=
  ids.map fun id => ⟨id, stateOf id⟩

/-- The view a capture has of a container: its ids and its states, as far as they are usable. -/
structure Container (S : Type) where
  ids : Option (List Int32)
  stateOf : Option (Int32 → Option S)

/-- The part of a container for want of which nothing can be captured. -/
inductive Unusable where
  | ids
  | states
deriving DecidableEq, Repr

def Unusable.event : Unusable → Event
  | .ids => .containerUnusable "customViewIds"
  | .states => .containerUnusable "viewHierarchyState.views"

namespace Container

variable {S : Type}

def capture (container : Container S) : Except Unusable (List (CapturedRow S)) :=
  match container.ids, container.stateOf with
  | none, _ => .error .ids
  | some _, none => .error .states
  | some ids, some stateOf => .ok (NoteForm.capture ids stateOf)

end Container

def SavedState.container {S : Type} (saved : SavedState S) : Container S where
  ids := saved.viewIds
  stateOf := do
    let hierarchy ← saved.hierarchy
    let views ← hierarchy.views
    some views.find?

namespace Json

/-- The decimal text under which a state is kept for a view id. -/
def viewIdName (id : Int32) : String := String.ofList (Decimal.ofInt id.toInt)

/-- The states of an object whose members are named by view ids. -/
def stateOf (members : List (String × Json)) (id : Int32) : Option Json :=
  (object members).member? (viewIdName id)

/-- A value seen as a container. One list element that is no view id makes the whole list unusable;
members besides the ones that are looked for do not matter. -/
def container (value : Json) : Container Json where
  ids := do
    let listed ← value.member? "customViewIds"
    let items ← listed.array?
    items.mapM viewId?
  stateOf := do
    let hierarchy ← value.member? "viewHierarchyState"
    let views ← hierarchy.member? "views"
    let members ← views.object?
    some (stateOf members)

end Json
end NoteForm
