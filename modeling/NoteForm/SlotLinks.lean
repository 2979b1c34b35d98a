import NoteForm.NoteType

/-! Links from the slots of one form to the slots of another, as chosen when a note changes its
type. -/
namespace NoteForm

/-- The field in slot `old` is to be carried over to slot `new`. -/
structure Link where
  old : Slot
  new : Slot
deriving DecidableEq, Repr

/-- Links are ordered by old slot, then by new slot. -/
def Link.key (link : Link) : List Slot := [link.old, link.new]

def Link.reversed (link : Link) : Link := ⟨link.new, link.old⟩

/-- A map that sends some slots to one slot each. -/
structure SlotMap where
  entries : List (Slot × Slot)
  ascending : Ascending.Sorted Prod.fst entries
deriving DecidableEq, Repr

namespace SlotMap

/-- Gather pairs; of those with the same first slot the last counts. -/
def ofList (pairs : List (Slot × Slot)) : SlotMap :=
  ⟨Ascending.putAll Prod.fst pairs [], Ascending.Sorted.putAll List.Pairwise.nil pairs⟩

def get? (map : SlotMap) (slot : Slot) : Option Slot :=
  (map.entries.find? (·.1 = slot)).map (·.2)

end SlotMap

/-- A finite set of links. Several links may start or end in the same slot, and slots need not
exist on either side. -/
structure SlotLinks where
  links : List Link
  ascending : Ascending.Sorted Link.key links
deriving DecidableEq, Repr

namespace SlotLinks

def empty : SlotLinks := ⟨[], List.Pairwise.nil⟩

def insert (table : SlotLinks) (link : Link) : SlotLinks :=
  ⟨Ascending.put Link.key link table.links, table.ascending.put link⟩

def insertAll (table : SlotLinks) (links : List Link) : SlotLinks :=
  ⟨Ascending.putAll Link.key links table.links, table.ascending.putAll links⟩

def ofList (links : List Link) : SlotLinks := empty.insertAll links

/-- Each old slot of the map goes to the one new slot it is sent to. -/
def ofOldToNew (map : SlotMap) : SlotLinks :=
  ofList (map.entries.map fun (old, new) => ⟨old, new⟩)

/-- Each new slot of the map takes from the one old slot it is sent to. -/
def ofNewToOld (map : SlotMap) : SlotLinks :=
  ofList (map.entries.map fun (new, old) => ⟨old, new⟩)

def identityLinks (count : Slot) : List Link :=
  (List.range count.toNat).map fun slot => ⟨UInt64.ofNat slot, UInt64.ofNat slot⟩

/-- Links that each keep one slot where it is come in the order of the slots. -/
theorem ascending_identityLinks (count : Slot) :
    Ascending.Sorted Link.key (identityLinks count) := by
  have hCount := count.toNat_lt
  refine List.pairwise_map.2 (List.pairwise_lt_range.imp_of_mem fun {a b} ha hb hLt => ?_)
  have hBefore : UInt64.ofNat a < UInt64.ofNat b := by
    rw [List.mem_range] at ha hb
    rw [UInt64.lt_iff_toNat_lt, UInt64.toNat_ofNat', UInt64.toNat_ofNat']
    omega
  exact List.Lex.rel hBefore

/-- Every slot below `count` stays where it is. -/
def identity (count : Slot) : SlotLinks := ⟨identityLinks count, ascending_identityLinks count⟩

def size (table : SlotLinks) : Nat := table.links.length

def isEmpty (table : SlotLinks) : Bool := table.links.isEmpty

/-- The slot that feeds `new`: the lowest of the old slots linked to it. -/
def oldSlot? (table : SlotLinks) (new : Slot) : Option Slot :=
  (table.links.find? (·.new = new)).map (·.old)

end SlotLinks
end NoteForm
