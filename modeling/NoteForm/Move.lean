import NoteForm.Note
import NoteForm.SlotLinks
import NoteForm.LabelPolicy
import NoteForm.Event

/-! Moving a note to another note type: each slot of the new form takes over the value of the old
field that is linked to it. -/
namespace NoteForm

/-- The old field that the links bring to a slot. Nothing comes to a slot whose lowest link starts
behind the last old field. -/
def SlotLinks.carried? (links : SlotLinks) (old : List NoteField) (slot : Slot) :
    Option NoteField := do
  let source ← links.oldSlot? slot
  old[source.toNat]?

/-- The new field for a definition: it has the carried value and a label that may name the old
field, or is empty under its plain name. -/
def carriedField (policy : LabelPolicy) (links : SlotLinks) (old : List NoteField)
    (definition : FieldDefinition) : NoteField :=
  match links.carried? old definition.slot with
  | some field =>
      { name := if policy.namesOldFields old.length then policy.label definition.name field.name
          else definition.name
        value := field.value }
  | none => ⟨definition.name, ""⟩

/-- Put the new field for a definition in its slot. A field that is there already gives way, and where
there is no such slot nothing is put. -/
def placeField (policy : LabelPolicy) (links : SlotLinks) (old : List NoteField)
    (slots : List (Option NoteField)) (definition : FieldDefinition) : List (Option NoteField) :=
  slots.set definition.slot.toNat (some (carriedField policy links old definition))

/-- The fields of the moved note in slot order: there are as many slots as entries, the entries fill them
one after the other, and slots that stay empty are dropped. The index need not be a valid one: entries
whose slot is not below their number are left out. -/
def FieldIndex.carryOver (index : FieldIndex) (links : SlotLinks) (policy : LabelPolicy)
    (old : List NoteField) : List NoteField :=
  (index.bySlot.foldl (placeField policy links old) (List.replicate index.size none)).filterMap id

/-- What is reported for one entry while the fields are carried over. -/
def carryEvent? (count : Nat) (links : SlotLinks) (oldCount : Nat) (entry : FieldDefinition) :
    Option Event :=
  if count ≤ entry.slot.toNat then some (.slotSkipped entry.name entry.slot)
  else do
    let source ← links.oldSlot? entry.slot
    if oldCount ≤ source.toNat then some (.linkDangling source entry.slot oldCount) else none

def FieldIndex.carryEvents (index : FieldIndex) (links : SlotLinks) (old : List NoteField) :
    List Event :=
  index.bySlot.filterMap (carryEvent? index.size links old.length)

/-- A change of note type that can be carried out: the target is a valid note type. The links are
arbitrary. -/
structure Move where
  target : FieldIndex
  links : SlotLinks
  checked : target.check = .ok ()
deriving DecidableEq, Repr

namespace Move

def ofIndex (target : FieldIndex) (links : SlotLinks) : Except SlotFault Move :=
  match h : target.check with
  | .ok () => .ok ⟨target, links, h⟩
  | .error fault => .error fault

def ofNoteType (target : NoteType) (links : SlotLinks) : Except SlotFault Move :=
  ofIndex target.index links

def fields (move : Move) (policy : LabelPolicy) (old : List NoteField) : List NoteField :=
  move.target.carryOver move.links policy old

def events (move : Move) (old : List NoteField) : List Event :=
  move.target.carryEvents move.links old

end Move
end NoteForm
