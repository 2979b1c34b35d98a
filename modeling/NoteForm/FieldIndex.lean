import NoteForm.NoteType

/-! The fields of a note type looked up by name. The entries of an index stand in no particular
order, so what it says about slots has to hold for every order of them. -/
namespace NoteForm

/-- One definition for each distinct name, and how many definitions there were to begin with. -/
structure FieldIndex where
  entries : List FieldDefinition
  declared : Nat
  distinct : (entries.map (·.name)).Nodup
deriving DecidableEq, Repr

/-- Why a note type cannot be the target of a move. -/
inductive SlotFault where
  | repeatedNames (declared distinct : Nat)
  | outOfRange (name : String) (slot : Slot) (count : Nat)
  | reused (name : String) (slot : Slot)
deriving DecidableEq, Repr

def SlotFault.message : SlotFault → String
  | .repeatedNames declared distinct =>
      "model declares " ++ toString declared ++ " fields but only " ++ toString distinct ++
        " names are distinct"
  | .outOfRange name slot count =>
      "field '" ++ name ++ "' has slot " ++ toString slot.toNat ++ " but the model only has " ++
        toString count ++ " fields"
  | .reused name slot => "field '" ++ name ++ "' reuses slot " ++ toString slot.toNat

namespace FieldIndex

/-- Enter a definition under its name. It takes the place of an earlier one of that name. -/
def enter (definition : FieldDefinition) : List FieldDefinition → List FieldDefinition
  | [] => [definition]
  | held :: rest =>
      if held.name = definition.name then definition :: rest else held :: enter definition rest

/-- Entering a definition adds its name, unless the name is there already. -/
theorem mem_names_enter {definition : FieldDefinition} {entries : List FieldDefinition}
    {name : String} :
    name ∈ (enter definition entries).map (·.name) ↔
      name = definition.name ∨ name ∈ entries.map (·.name) := by
  induction entries with
  | nil => simp [enter]
  | cons held rest ih =>
      rw [enter]
      split
      · rename_i hSame
        simp [hSame]
      · simp only [List.map_cons, List.mem_cons, ih]
        grind

/-- No name is entered twice. -/
theorem nodup_names_enter {definition : FieldDefinition} {entries : List FieldDefinition}
    (h : (entries.map (·.name)).Nodup) : ((enter definition entries).map (·.name)).Nodup := by
  induction entries with
  | nil => simp [enter]
  | cons held rest ih =>
      obtain ⟨hHeld, hRest⟩ := List.nodup_cons.1 h
      rw [enter]
      split
      · rename_i hSame
        exact List.nodup_cons.2 ⟨by simpa [hSame] using hHeld, hRest⟩
      · rename_i hOther
        refine List.nodup_cons.2 ⟨fun hMem => ?_, ih hRest⟩
        rcases mem_names_enter.1 hMem with hEq | hMem
        · exact hOther hEq
        · exact hHeld hMem

/-- Enter the definitions of a list one after the other. -/
def enterAll (definitions : List FieldDefinition) : List FieldDefinition :=
  definitions.foldl (fun entries definition => enter definition entries) []

theorem nodup_names_foldl_enter (definitions : List FieldDefinition)
    {entries : List FieldDefinition} (h : (entries.map (·.name)).Nodup) :
    ((definitions.foldl (fun held definition => enter definition held) entries).map
      (·.name)).Nodup := by
  induction definitions generalizing entries with
  | nil => exact h
  | cons definition rest ih => exact ih (nodup_names_enter h)

/-- However often a name is declared, the index has one entry for it. -/
theorem nodup_names_enterAll (definitions : List FieldDefinition) :
    ((enterAll definitions).map (·.name)).Nodup :=
  nodup_names_foldl_enter definitions List.nodup_nil

def size (index : FieldIndex) : Nat := index.entries.length

def isEmpty (index : FieldIndex) : Bool := index.entries.isEmpty

def find? (index : FieldIndex) (name : String) : Option FieldDefinition :=
  index.entries.find? (·.name = name)

def slotOf? (index : FieldIndex) (name : String) : Option Slot :=
  (index.find? name).map (·.slot)

/-- The entries in slot order. Of entries in the same slot only the one that stands last is seen. -/
def bySlot (index : FieldIndex) : List FieldDefinition :=
  Ascending.putAll (·.slot) index.entries []

/-- The entries whose slot does not exist in a form with one slot for each entry. -/
def outOfRange (index : FieldIndex) : List FieldDefinition :=
  index.entries.filter fun entry => index.size ≤ entry.slot.toNat

/-- The slots that exist and are taken by more than one entry, in ascending order. -/
def sharedSlots (index : FieldIndex) : List Slot :=
  (index.bySlot.map (·.slot)).filter fun slot =>
    slot.toNat < index.size ∧ 1 < index.entries.countP (·.slot = slot)

/-- Go through the entries with the slots taken so far, and stop at the first one whose slot is
out of range or taken. -/
def checkSlots (count : Nat) (taken : List Slot) : List FieldDefinition → Except SlotFault Unit
  | [] => .ok ()
  | entry :: rest =>
      if count ≤ entry.slot.toNat then .error (.outOfRange entry.name entry.slot count)
      else if entry.slot ∈ taken then .error (.reused entry.name entry.slot)
      else checkSlots count (entry.slot :: taken) rest

/-- Whether the declared names all differ and the slots are exactly those below their number, each
in use once. -/
def check (index : FieldIndex) : Except SlotFault Unit :=
  if index.declared ≠ index.size then .error (.repeatedNames index.declared index.size)
  else checkSlots index.size [] index.entries

end FieldIndex

/-- The index of a note type. A later definition of a name replaces an earlier one. -/
def NoteType.index (t : NoteType) : FieldIndex :=
  ⟨FieldIndex.enterAll t.fields, t.fields.length, FieldIndex.nodup_names_enterAll t.fields⟩

end NoteForm
