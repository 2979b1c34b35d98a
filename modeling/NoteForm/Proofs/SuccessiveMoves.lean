import NoteForm.Proofs.Delivery

/-! Moves taken one after the other. A note that is moved and moved back over the reversed links has
the values that were linked to anything, and two moves do what one move over the composed links
does. -/
namespace NoteForm

namespace SlotLinks

/-- The same links taken in the other direction. -/
def reversed (links : SlotLinks) : SlotLinks := ofList (links.links.map Link.reversed)

/-- Taken in the other direction, the links of a slot lead to where they came from. -/
@[simp] theorem mem_sources_reversed {links : SlotLinks} {slot new : Slot} :
    new ∈ links.reversed.sources slot ↔ slot ∈ links.sources new := by
  simp only [reversed, mem_sources_ofList, List.mem_map]
  constructor
  · rintro ⟨⟨old, other⟩, hMem, hEq⟩
    cases hEq
    exact hMem
  · intro hMem
    exact ⟨_, hMem, rfl⟩

/-- No slot of a form with this many slots is linked to two old slots. -/
def OneSource (links : SlotLinks) (count : Nat) : Prop :=
  ∀ first ∈ links.links, ∀ second ∈ links.links,
    first.new = second.new → first.new.toNat < count → first.old = second.old

/-- An old slot is linked to some slot of a form with this many slots. -/
def Reaches (links : SlotLinks) (old count : Nat) : Prop :=
  ∃ link ∈ links.links, link.old.toNat = old ∧ link.new.toNat < count

instance (links : SlotLinks) (count : Nat) : Decidable (links.OneSource count) :=
  inferInstanceAs (Decidable (∀ first ∈ links.links, ∀ second ∈ links.links,
    first.new = second.new → first.new.toNat < count → first.old = second.old))

instance (links : SlotLinks) (old count : Nat) : Decidable (links.Reaches old count) :=
  inferInstanceAs (Decidable (∃ link ∈ links.links, link.old.toNat = old ∧ link.new.toNat < count))

/-- A slot that is linked to one old slot only is fed by it. -/
theorem OneSource.oldSlot? {links : SlotLinks} {count : Nat} (h : links.OneSource count)
    {old new : Slot} (hLinked : old ∈ links.sources new) (hNew : new.toNat < count) :
    links.oldSlot? new = some old := by
  rw [oldSlot?_eq_some_iff]
  refine ⟨hLinked, fun other hOther => ?_⟩
  exact UInt64.le_of_eq (h ⟨old, new⟩ hLinked ⟨other, new⟩ hOther rfl hNew)

/-- On the way back an old slot takes from the lowest slot it was linked to. If it was linked to a
slot of the new form at all, then to that one, and no other old slot can have filled it. -/
theorem valueAt_reversed {links : SlotLinks} {count : Nat} (hSource : links.OneSource count)
    {values moved : List String} (hLength : moved.length = count)
    (hMoved : ∀ slot : Slot, slot.toNat < count →
      moved[slot.toNat]? = some (links.valueAt values slot)) (slot : Slot) :
    links.reversed.valueAt moved slot =
      if links.Reaches slot.toNat count then values[slot.toNat]?.getD "" else "" := by
  split
  · rename_i hReaches
    obtain ⟨⟨old, new⟩, hLink, hOld, hNew⟩ := hReaches
    obtain rfl : old = slot := UInt64.toNat_inj.1 hOld
    obtain ⟨least, hLeast, hLe⟩ :=
      exists_oldSlot?_of_mem_sources (mem_sources_reversed.2 hLink)
    have hInside : least.toNat < count := Nat.lt_of_le_of_lt (UInt64.le_iff_toNat_le.1 hLe) hNew
    have hFrom : old ∈ links.sources least :=
      mem_sources_reversed.1 (isLeast_sources_of_oldSlot? hLeast).1
    rw [valueAt_of_oldSlot? hLeast, hMoved least hInside, Option.getD_some,
      valueAt_of_oldSlot? (hSource.oldSlot? hFrom hInside)]
  · rename_i hMissed
    cases hLeast : links.reversed.oldSlot? slot with
    | none => exact valueAt_of_unlinked hLeast moved
    | some least =>
        have hFrom := mem_sources_reversed.1 (isLeast_sources_of_oldSlot? hLeast).1
        have hOutside : count ≤ least.toNat :=
          Nat.not_lt.1 fun hInside => hMissed ⟨⟨slot, least⟩, hFrom, rfl, hInside⟩
        rw [valueAt_of_oldSlot? hLeast, List.getElem?_eq_none (hLength ▸ hOutside)]
        rfl

/-- The old slot that feeds a slot through the form between two moves, in which this many slots
exist. -/
def through? (first second : SlotLinks) (between : Nat) (slot : Slot) : Option Slot := do
  let middle ← second.oldSlot? slot
  if middle.toNat < between then first.oldSlot? middle else none

/-- A slot between the moves that is empty brings as much as one that is not there. -/
theorem valueAt_through {first second composed : SlotLinks} {between : Nat} {slot : Slot}
    (h : composed.oldSlot? slot = first.through? second between slot)
    {values moved : List String} (hLength : moved.length = between)
    (hMoved : ∀ middle : Slot, middle.toNat < between →
      moved[middle.toNat]? = some (first.valueAt values middle)) :
    second.valueAt moved slot = composed.valueAt values slot := by
  unfold through? at h
  cases hMiddle : second.oldSlot? slot with
  | none =>
      rw [hMiddle] at h
      rw [valueAt_of_unlinked hMiddle, valueAt_of_unlinked h]
  | some middle =>
      rw [hMiddle] at h
      change composed.oldSlot? slot =
        if middle.toNat < between then first.oldSlot? middle else none at h
      rw [valueAt_of_oldSlot? hMiddle]
      split at h
      · rename_i hInside
        rw [hMoved middle hInside, Option.getD_some, valueAt, valueAt, h]
      · rename_i hOutside
        rw [valueAt_of_unlinked h, List.getElem?_eq_none (by omega)]
        rfl

end SlotLinks

/-- As long as labels do not name old fields, a field keeps its plain name. -/
theorem name_carriedField_of_plain {policy : LabelPolicy} {old : List NoteField}
    (h : old.length ≤ policy.minOldFields.toNat) (links : SlotLinks)
    (definition : FieldDefinition) :
    (carriedField policy links old definition).name = definition.name := by
  have hPlain : policy.namesOldFields old.length = false := by
    simpa [LabelPolicy.namesOldFields] using h
  cases hCarried : links.carried? old definition.slot with
  | some field => simp [carriedField_of_carried hCarried, hPlain]
  | none => rw [carriedField_of_not_carried hCarried]

namespace Move

/-- The move over the same links back to a note type. -/
def back (move : Move) (home : FieldIndex) (h : home.check = .ok ()) : Move :=
  ⟨home, move.links.reversed, h⟩

/-- A note is moved over links that bring no slot of the new form two old fields, and moved back over
the reversed links. Then it has as many fields as before, and each has its value again if it was
linked to any slot of the form in between. All other fields are empty. -/
theorem values_there_and_back (move : Move) {home : FieldIndex} (hHome : home.check = .ok ())
    {old : List NoteField} (hLength : old.length = home.size)
    (hSource : move.links.OneSource move.target.size) (policy : LabelPolicy) :
    let returned := (move.back home hHome).fields policy (move.fields policy old)
    returned.length = home.size ∧
      ∀ position field, old[position]? = some field →
        (returned[position]?).map (·.value) =
          some (if move.links.Reaches position move.target.size then field.value else "") := by
  intro returned
  refine ⟨length_fields_eq_size _ _ _, fun position field hField => ?_⟩
  have hPosition : position < home.size := by
    rw [← hLength]
    exact (List.getElem?_eq_some_iff.1 hField).1
  obtain ⟨entry, -, rfl⟩ := FieldIndex.exists_entry_of_lt hHome hPosition
  have hReturned := (move.back home hHome).getElem?_values policy (move.fields policy old) hPosition
  rw [List.getElem?_map] at hReturned
  have hMoved : ((move.fields policy old).map (·.value)).length = move.target.size := by
    rw [List.length_map, length_fields_eq_size]
  rw [hReturned, back, SlotLinks.valueAt_reversed hSource hMoved
    fun slot hSlot => move.getElem?_values policy old hSlot]
  simp [hField]

/-- A note type with fields in three slots. -/
def threeFields : FieldIndex := (NoteType.ofNames "Three" ["Front", "Back", "Extra"]).index

/-- The first field is copied to two slots, the second one goes to a slot that is not there, and the
slot that is left takes from a field that is not there. -/
def fanOut : Move := ⟨threeFields, .ofList [⟨0, 1⟩, ⟨0, 2⟩, ⟨1, 7⟩, ⟨9, 0⟩], by decide⟩

theorem values_there_and_back_fanOut :
    let old : List NoteField := [⟨"A", "a"⟩, ⟨"B", "b"⟩, ⟨"C", "c"⟩]
    let returned := (fanOut.back threeFields (by decide)).fields .standard
      (fanOut.fields .standard old)
    fanOut.links.OneSource 3 ∧ returned.length = 3 ∧
      (returned[0]?).map (·.value) = some "a" ∧ (returned[1]?).map (·.value) = some "" := by
  intro old returned
  have hSource : fanOut.links.OneSource 3 := by decide
  have hOld : old.length = threeFields.size := by decide
  obtain ⟨hLength, hReturned⟩ :=
    values_there_and_back fanOut (by decide) hOld hSource .standard
  exact ⟨hSource, hLength, hReturned 0 ⟨"A", "a"⟩ rfl, hReturned 1 ⟨"B", "b"⟩ rfl⟩

/-- One move over the links of two, to the note type the second one leads to. -/
def followedBy (first second : Move) : Move where
  target := second.target
  links := .ofNewToOld (.ofFunction (second.target.entries.map (·.slot))
    (first.links.through? second.links first.target.size))
  checked := second.checked

theorem oldSlot?_followedBy (first second : Move) {entry : FieldDefinition}
    (h : entry ∈ second.target.entries) :
    (first.followedBy second).links.oldSlot? entry.slot =
      first.links.through? second.links first.target.size entry.slot := by
  rw [followedBy, SlotLinks.oldSlot?_ofNewToOld,
    SlotMap.get?_ofFunction (List.mem_map_of_mem h)]

/-- Two moves leave the values that one move over the composed links leaves. If neither the old note
nor the one in between has enough fields for labels to name them, the fields are the same with their
labels. -/
theorem fields_followedBy (first second : Move) (policy : LabelPolicy) (old : List NoteField) :
    let twice := second.fields policy (first.fields policy old)
    let once := (first.followedBy second).fields policy old
    twice.map (·.value) = once.map (·.value) ∧
      (old.length ≤ policy.minOldFields.toNat →
        first.target.size ≤ policy.minOldFields.toNat → twice = once) := by
  intro twice once
  have hMoved : ((first.fields policy old).map (·.value)).length = first.target.size := by
    rw [List.length_map, length_fields_eq_size]
  have hValue : ∀ entry ∈ second.target.bySlot,
      (carriedField policy second.links (first.fields policy old) entry).value =
        (carriedField policy (first.followedBy second).links old entry).value := by
    intro entry hEntry
    obtain ⟨-, -, hNodup⟩ := second.target.check_eq_ok_iff.1 second.checked
    have hListed := (FieldIndex.bySlot_perm hNodup).mem_iff.1 hEntry
    rw [value_carriedField, value_carriedField]
    exact SlotLinks.valueAt_through (first.oldSlot?_followedBy second hListed) hMoved
      fun middle hMiddle => first.getElem?_values policy old hMiddle
  have hTwice : twice = second.target.bySlot.map _ := second.fields_eq_map policy _
  have hOnce : once = second.target.bySlot.map _ := (first.followedBy second).fields_eq_map policy old
  rw [hTwice, hOnce]
  constructor
  · rw [List.map_map, List.map_map]
    exact List.map_congr_left hValue
  · intro hOld hBetween
    rw [← first.length_fields_eq_size policy old] at hBetween
    refine List.map_congr_left fun entry hEntry => ?_
    have hName := (name_carriedField_of_plain hBetween second.links entry).trans
      (name_carriedField_of_plain hOld (first.followedBy second).links entry).symm
    exact congrArg₂ NoteField.mk hName (hValue entry hEntry)

/-- The first slot takes from one that nothing comes to, two compete for the second one, and the third
one takes from a slot that is not there. -/
def competing : Move := ⟨threeFields, .ofList [⟨0, 0⟩, ⟨2, 1⟩, ⟨1, 1⟩, ⟨5, 2⟩], by decide⟩

theorem fields_followedBy_competing :
    let old : List NoteField := [⟨"A", "a"⟩, ⟨"B", "b"⟩]
    let policy : LabelPolicy := ⟨3, "\x7bold\x7d"⟩
    old.length ≤ 3 ∧ fanOut.target.size ≤ 3 ∧
      competing.fields policy (fanOut.fields policy old) =
        (fanOut.followedBy competing).fields policy old ∧
      (fanOut.followedBy competing).links = .ofList [⟨9, 0⟩, ⟨0, 1⟩] := by
  intro old policy
  have hBetween : fanOut.target.size ≤ 3 := by decide
  obtain ⟨-, hFields⟩ := fields_followedBy fanOut competing policy old
  exact ⟨by decide, hBetween, hFields (by decide) hBetween, by decide⟩

end Move
end NoteForm
